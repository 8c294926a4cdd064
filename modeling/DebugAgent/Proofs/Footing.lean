import DebugAgent.Proofs.CountsLast
import DebugAgent.Proofs.Silenced
import DebugAgent.Proofs.StepView

/-!
# What is seen of a step

When the machine reports a step, the agent makes the thread and the class known to the client and
puts together a context.  The identifiers in it depend on the past of the agent.  The rest, the
footing, is what the thread shows of the step, whatever identifiers are in use, and it is there
whenever the thread shows anything: as long as notification of its steps is enabled, the machine
reports them, and nothing on the way to the context can fail that is not part of the view.

Filters that name no object look at the footing only.  So two agents that see the same footing of a
step agree about what a request does with it.
-/

namespace DebugAgent

open DebugAgent.Action Command Tracking
open Relation (ReflTransGen)

variable {may : Control → Prop} {α : Type} {a b : Agent} {thread object : HeapId} {h : Handle}

/-! ### What is captured of a step -/

theorem Inspection.holdsGlobal (hinspection : Inspection may a b) (hb : a.vm.RefsBounded)
    (hglobal : a.vm.HoldsGlobal h object) : b.vm.HoldsGlobal h object := by
  rcases hinspection.conserves hb with ⟨hconserves, -⟩ | ⟨other, rfl⟩
  · exact hconserves.globals hglobal
  · exact holdsGlobal_enrol hb hglobal other

/-- A command that looks leaves the references that are valid. -/
theorem Command.Looks.target? {x : Command α} (hx : Looks Control.Any x) (ho : Orderly a)
    (htarget : a.vm.target? h = some object) : (x.perform a).2.vm.target? h = some object := by
  have hnull := Vm.isNull_eq_false_of_target htarget
  rw [Vm.target?, hnull] at htarget ⊢
  obtain ⟨⟨target, kind⟩, href, rfl⟩ := Option.map_eq_some_iff.mp htarget
  refine Option.map_eq_some_iff.mpr ⟨⟨target, kind⟩, ?_, rfl⟩
  cases kind with
  | localRef => exact ((hx.balanced.opened ho.refs).locals h.raw target |>.mp href).1
  | globalRef =>
      have hkept : Orderly (x.perform a).2 ∧ (x.perform a).2.vm.HoldsGlobal h target :=
        hx.makes.preserves (P := fun b : Agent => Orderly b ∧ b.vm.HoldsGlobal h target)
          (fun hstep hb => ⟨hb.1.evolves (.single (hstep.change hb.1.refs)),
            hstep.holdsGlobal hb.1.refs hb.2⟩) ⟨ho, hnull, href⟩
      exact hkept.2.get?

theorem Orderly.opened (ho : Orderly a) (object : HeapId) : Orderly (a.opened object) :=
  ho.change (.machine (Vm.conserves_newLocal ho.refs object).toKeeps)

namespace Capture

/-- The position of a code index of a method whose declaring class is at hand. -/
def siteIn (method : MethodId) (index : CodeIndex) (cls : Handle) : Command Site := do
  let location ← Positions.locationIn cls method index
  let (signature, _) ← ask fun vm => vm.classSignature cls
  return ⟨location, ← see fun vm => vm.target? cls, Signature.className signature⟩

theorem perform_siteIn (ho : Orderly a) (hgrant : a.vm.grants Capabilities.canTagObjects)
    (method : MethodId) (index : CodeIndex) (htarget : a.vm.target? h = some object) :
    ((siteIn method index h).perform a).1.toOption.map Site.className =
      (a.vm.classAt? object).map fun body => Signature.className body.signature := by
  have hclassOf : a.vm.classOf h =
      (a.vm.classAt? object).elim (.error .invalidClass) .ok := by
    rw [Vm.classOf, htarget, Option.bind_some]
    cases a.vm.classAt? object <;> rfl
  cases hclass : a.vm.classAt? object with
  | none =>
      rw [hclass] at hclassOf
      have hfails : ∃ stop, (trackClass h).perform a = (.error stop, a) := by
        refine ⟨.refused (JvmtiError.toProtocol .invalidClass), ?_⟩
        simp [trackClass, perform_bind, requireRef, Vm.isNull_eq_false_of_target htarget, ask,
          Vm.isArrayClass, hclassOf, Except.map, Except.mapError]
      obtain ⟨stop, hfails⟩ := hfails
      rw [siteIn, Positions.locationIn, perform_bind, perform_bind, hfails]
      rfl
  | some body =>
      have hthere : Trackable Body.isClass [h] a := by
        refine ⟨ho.refs, hgrant, fun g hg => ?_⟩
        rw [Vm.classAt?_eq] at hclass
        obtain ⟨⟨cls, tag, held⟩, hheld, hbody⟩ := Option.bind_eq_some_iff.mp hclass
        refine ⟨object, _, List.mem_singleton.mp hg ▸ htarget, hheld, body, ?_⟩
        cases held with
        | classObject => exact congrArg Body.classObject (Option.some.inj hbody)
        | _ => cases hbody
      obtain ⟨type, b, htrack, -⟩ := hthere.trackClass List.mem_cons_self
      have hkept := (@looks_trackClass Control.Any h).target? ho htarget
      have hworld := (@looks_trackClass Control.Any h).keepsWorld.perform a
      rw [htrack] at hkept hworld
      have hsignature : b.vm.classSignature h = .ok (body.signature, body.genericSignature) := by
        simp [Vm.classSignature, Vm.classOf, hkept, hworld.classes, hclass]
      rw [siteIn, Positions.locationIn, bind_assoc, perform_bind_of_ok htrack, pure_bind,
        perform_bind_of_ok (perform_ask_ok hsignature)]
      rfl

/-- The class at the site of a method is the one that declares the method. -/
theorem perform_site (ho : Orderly a) (hgrant : a.vm.grants Capabilities.canTagObjects)
    (method : MethodId) (index : CodeIndex) :
    ((site method index).perform a).1.toOption.map Site.className =
      (a.vm.declaredIn method).map Signature.className := by
  have hsite : site method index = Positions.withDeclaringClass method (siteIn method index) := rfl
  cases hmethod : a.vm.methods.get? method with
  | none =>
      rw [Vm.declaredIn, hmethod, hsite, perform_withDeclaringClass_unknown hmethod]
      rfl
  | some decl =>
      let near := a.opened decl.cls
      have htarget : near.vm.target? (a.vm.newLocal decl.cls).1 = some decl.cls :=
        Vm.target?_newRef a.vm .localRef decl.cls
      rw [Vm.declaredIn, hmethod, Option.bind_some, hsite, perform_withDeclaringClass hmethod,
        perform_withLocal, perform_siteIn (ho.opened decl.cls) hgrant method index htarget,
        Option.map_map]
      rfl

end Capture

/-- What a context says beside the objects and identifiers in it. -/
structure Context.Footing where
  position : Option (MethodId × CodeIndex)
  className : Option String
  frameDepth : Option Int
  line : Option Int
  caught : Bool
  deriving DecidableEq

def Context.footing (ctx : Context) : Footing where
  position := ctx.position
  className := ctx.className
  frameDepth := ctx.frameDepth
  line := ctx.line
  caught := ctx.caught

/-- What can be captured of a step to a position, if anything can. -/
def StepView.footing? (view : StepView) (method : MethodId) (index : CodeIndex) :
    Option Context.Footing :=
  if view.attachFails || !view.tags then none
  else
    (view.declaredIn method).map fun signature =>
      { position := some (method, index)
        className := some (Signature.className signature)
        frameDepth := view.frameDepth
        line := view.lineAt method index
        caught := false }

theorem Vm.toOption_frameCount {vm : Vm} (htarget : vm.target? h = some thread) :
    (vm.frameCount h).toOption = vm.depthOf? thread := by
  rw [frameCount, threadOf, htarget, Option.bind_some, depthOf?]
  cases hbody : vm.threadAt? thread with
  | none => rfl
  | some body =>
      simp only [Option.bind_some, bind, Except.bind]
      split <;> rfl

namespace Capture

/-- With the thread at hand, what is captured of a step is the site of it and what can be asked. -/
theorem footing_of_scene {who : Scene} (hscene : (scene h).perform a = (.ok who, b)) (hb : Orderly b)
    (hgrant : b.vm.grants Capabilities.canTagObjects) (htarget : b.vm.target? h = some thread)
    (hthread : (b.vm.threadAt? thread).isSome) (wanted : Bool) (method : MethodId)
    (index : CodeIndex) :
    ((capture wanted (.singleStep h method index)).perform a).1.toOption.map Context.footing =
      (b.vm.declaredIn method).map fun signature =>
        { position := some (method, index)
          className := some (Signature.className signature)
          frameDepth := b.vm.depthOf? thread
          line := b.vm.lineAt method index
          caught := false } := by
  have hspot := perform_site hb hgrant method index
  have hlooks := @looks_site Control.Any method index
  have hc := hb.evolves (hlooks.evolves hb)
  have htargetc := hlooks.target? hb htarget
  have hworld := hlooks.keepsWorld.perform b
  rw [capture, perform_bind_of_ok hscene, perform_bind]
  cases hsite : (site method index).perform b with
  | mk outcome c =>
      rw [hsite] at hspot hc htargetc hworld
      cases outcome with
      | error stop =>
          have hnone : b.vm.declaredIn method = none := Option.map_eq_none_iff.mp hspot.symm
          rw [hnone]
          rfl
      | ok spot =>
          obtain ⟨answer, used, hreceiver⟩ := spends_receiver hc.refs wanted h method
          obtain ⟨signature, hsignature, hname⟩ := Option.map_eq_some_iff.mp hspot.symm
          have hdepth := Vm.toOption_frameCount htargetc
          rw [hworld.depthOf? hthread] at hdepth
          rw [hsignature, Option.map_some, ← hdepth, hname, ← hworld.lineAt]
          simp only [see, perform_bind, perform_look, hreceiver]
          rfl

/-- The thread of a callback is made known where objects can be tagged. -/
theorem perform_scene (ho : Orderly a) (hgrant : a.vm.grants Capabilities.canTagObjects)
    (htarget : a.vm.target? h = some thread) (hheld : (a.vm.heap[thread]?).isSome) :
    ∃ who b, (scene h).perform a = (.ok who, b) ∧ Orderly b ∧ b.vm.target? h = some thread ∧
      a.vm.KeepsWorld b.vm := by
  have hthere : Trackable (fun _ => True) [h] a := by
    refine ⟨ho.refs, hgrant, fun g hg => ?_⟩
    obtain ⟨held, hheld⟩ := Option.isSome_iff_exists.mp hheld
    exact ⟨thread, held, List.mem_singleton.mp hg ▸ htarget, hheld, trivial⟩
  obtain ⟨id, b, htrack, -⟩ := hthere.trackNew List.mem_cons_self
  have hlooks := @Looks.trackNew Control.Any h
  have hb := ho.evolves (hlooks.evolves ho)
  have htargetb := hlooks.target? ho htarget
  have hworld := hlooks.keepsWorld.perform a
  rw [htrack] at hb htargetb hworld
  refine ⟨⟨id, b.vm.target? h⟩, b, ?_, hb, htargetb, hworld⟩
  rw [scene, perform_bind_of_ok htrack]
  rfl

/-- What a native thread that is attached captures of a step. -/
theorem perform_capture_singleStep (ho : Orderly a) (htarget : a.vm.target? h = some thread)
    (hthread : (a.vm.threadAt? thread).isSome) (hfails : a.vm.attachFails = false) (wanted : Bool)
    (method : MethodId) (index : CodeIndex) :
    ((capture wanted (.singleStep h method index)).perform a).1.toOption.map Context.footing =
      (a.vm.stepView thread).footing? method index := by
  cases hgrant : a.vm.grants Capabilities.canTagObjects with
  | false =>
      have hnull := Vm.isNull_eq_false_of_target htarget
      have hfooting : (a.vm.stepView thread).footing? method index = none := by
        simp [StepView.footing?, Vm.stepView, hgrant]
      rcases Vm.getTag_cases a.vm h with ⟨cause, hstop⟩ | ⟨-, -, hgranted, -⟩
      · obtain ⟨stop, hfails⟩ := perform_trackNew_stopped hnull hstop
        rw [hfooting, capture, scene, perform_bind, perform_bind, hfails]
        rfl
      · rw [hgrant] at hgranted
        cases hgranted
  | true =>
      have hheld : (a.vm.heap[thread]?).isSome := by
        rw [Vm.threadAt?_eq] at hthread
        exact Option.isSome_of_isSome_bind hthread
      obtain ⟨who, b, hscene, hb, htargetb, hworld⟩ := perform_scene ho hgrant htarget hheld
      have hgrantb := (Vm.grants_congr hworld.capabilities _).trans hgrant
      rw [footing_of_scene hscene hb hgrantb htargetb (hworld.isThread hthread), hworld.declaredIn,
        hworld.depthOf? hthread, hworld.lineAt]
      simp [StepView.footing?, Vm.stepView, hgrant, hfails]

end Capture

/-- What is captured of a step is what the thread shows of it. -/
theorem footing_of_captured (ho : Orderly a) (htarget : a.vm.target? h = some thread)
    (hthread : (a.vm.threadAt? thread).isSome) (caller : NativeThread) (method : MethodId)
    (index : CodeIndex) :
    (a.captured caller (.singleStep h method index)).1.toOption.map Context.footing =
      (a.vm.stepView thread).footing? method index := by
  rw [Agent.captured, seqRight_eq_bind, perform_bind]
  cases hfails : a.vm.attachFails with
  | true =>
      have hfooting : (a.vm.stepView thread).footing? method index = none := by
        simp [StepView.footing?, Vm.stepView, hfails]
      have hrefused : (attach caller).perform a = (.error (.refused .internal), a) := by
        simp [attach, perform_bind, see, hfails]
      rw [hfooting, hrefused]
      rfl
  | false =>
      have hattach := Vm.KeepsWorld.attach a.vm caller
      rw [perform_attach hfails, ← hattach.stepView hthread]
      exact Capture.perform_capture_singleStep (ho.attached caller)
        ((target?_attach a.vm caller h).trans htarget) (hattach.isThread hthread)
        (hattach.attachFails.trans hfails) _ method index

/-! ### Steps of a thread -/

namespace Agent

/-- The position that a thread has come to, if an operation reports a step of it. -/
def stepTo? (a : Agent) (thread : HeapId) : Op → Option (MethodId × CodeIndex)
  | .deliver _ (.singleStep other method index) =>
      if other = thread then some (method, index) else none
  | .callback _ (.singleStep h method index) =>
      if a.vm.target? h = some thread then some (method, index) else none
  | _ => none

/-- What can be captured of a step of a thread. -/
def footing? (a : Agent) (thread : HeapId) (op : Op) : Option Context.Footing :=
  (a.stepTo? thread op).bind fun position => (a.vm.stepView thread).footing? position.1 position.2

end Agent

variable {near : Agent} {op : Op} {caller : NativeThread} {method : MethodId} {index : CodeIndex}

theorem keepsWorld_of_calledBack {c : Callback Handle}
    (hcalled : a.calledBack? op = some (near, caller, c)) : a.vm.KeepsWorld near.vm := by
  cases op with
  | callback =>
      cases hcalled
      exact .refl a.vm
  | deliver _ happening =>
      rw [Agent.calledBack?] at hcalled
      dsimp only at hcalled
      split at hcalled
      · cases hcalled
        exact .enterCallback a.vm happening
      · cases hcalled
  | _ => cases hcalled

theorem Vm.target?_enterCallback_singleStep (vm : Vm) (other : HeapId) (method : MethodId)
    (index : CodeIndex) : ∃ h, (vm.enterCallback (.singleStep other method index)).1 =
      .singleStep h method index ∧
        (vm.enterCallback (.singleStep other method index)).2.target? h = some other :=
  ⟨_, rfl, Vm.target?_newRef vm .localRef other⟩

/-- A thread that is enabled for steps has the agent called back for each of them. -/
theorem stepTo?_eq_some_iff (henabled : a.vm.isEnabled .singleStep (some thread)) :
    a.stepTo? thread op = some (method, index) ↔ ∃ near caller h,
      a.calledBack? op = some (near, caller, .singleStep h method index) ∧
        near.vm.target? h = some thread := by
  cases op with
  | callback caller c =>
      cases c with
      | singleStep h position offset =>
          simp only [Agent.stepTo?, Agent.calledBack?, Option.ite_none_right_eq_some]
          constructor
          · rintro ⟨htarget, hposition⟩
            cases hposition
            exact ⟨a, caller, h, rfl, htarget⟩
          · rintro ⟨near, caller, h, hcalled, htarget⟩
            cases hcalled
            exact ⟨htarget, rfl⟩
      | _ => simp [Agent.stepTo?, Agent.calledBack?]
  | deliver caller c =>
      cases c with
      | singleStep other position offset =>
          obtain ⟨h, hcarried, htarget⟩ :=
            a.vm.target?_enterCallback_singleStep other position offset
          cases hdelivers : a.vm.delivers (.singleStep other position offset) with
          | true =>
              rw [calledBack?_deliver hdelivers, hcarried, Agent.stepTo?,
                Option.ite_none_right_eq_some]
              constructor
              · rintro ⟨rfl, hposition⟩
                cases hposition
                exact ⟨_, caller, h, rfl, htarget⟩
              · rintro ⟨near, caller, g, hcalled, hg⟩
                cases hcalled
                exact ⟨Option.some.inj (htarget.symm.trans hg), rfl⟩
          | false =>
              have hne : other ≠ thread := by
                rintro rfl
                simp [Vm.delivers, Callback.kind, Callback.thread?, henabled] at hdelivers
              simp [Agent.stepTo?, Agent.calledBack?, hdelivers, hne]
      | _ => simp [Agent.stepTo?, Agent.calledBack?, Vm.enterCallback, Callback.withObjects]
  | _ => simp [Agent.stepTo?, Agent.calledBack?]

/-- What is seen of a step of a thread is what the thread shows of it. -/
theorem footing?_eq_some_iff (ho : Orderly a) (hthread : (a.vm.threadAt? thread).isSome)
    (henabled : a.vm.isEnabled .singleStep (some thread)) {footing : Context.Footing} :
    a.footing? thread op = some footing ↔ ∃ sighting, a.sighting? op = some sighting ∧
      sighting.kind = .singleStep ∧ sighting.ctx.thread = some thread ∧
        sighting.ctx.footing = footing := by
  constructor
  · intro hfooting
    obtain ⟨⟨method, index⟩, hposition, hseen⟩ := Option.bind_eq_some_iff.mp hfooting
    obtain ⟨near, caller, h, hcalled, htarget⟩ := (stepTo?_eq_some_iff henabled).mp hposition
    have hworld := keepsWorld_of_calledBack hcalled
    have hcaptured := footing_of_captured (calledBack ho hcalled).1 htarget
      (hworld.isThread hthread) caller method index
    rw [hworld.stepView hthread, hseen] at hcaptured
    cases hctx : near.captured caller (.singleStep h method index) with
    | mk outcome seen =>
        rw [hctx] at hcaptured
        cases outcome with
        | error stop => cases hcaptured
        | ok ctx =>
            have hsighting : a.sighting? op = some ⟨.singleStep, ctx, seen⟩ := by
              rw [Agent.sighting?, hcalled]
              simp only [hctx]
              rfl
            refine ⟨_, hsighting, rfl, ?_, Option.some.inj hcaptured⟩
            rw [thread_of_sighting ho hsighting, Agent.threadIn?, hcalled]
            exact htarget
  · rintro ⟨⟨kind, ctx, seen⟩, hsighting, hkind, hin, rfl⟩
    have hthreadIn := thread_of_sighting ho hsighting
    obtain ⟨near, caller, c, hcalled, hcaptured, rfl⟩ := Agent.sighting?_eq_some hsighting
    rw [Agent.threadIn?, hcalled, hin] at hthreadIn
    cases c with
    | singleStep h method index =>
        have hposition := (stepTo?_eq_some_iff henabled).mpr
          ⟨near, caller, h, hcalled, hthreadIn.symm⟩
        have hworld := keepsWorld_of_calledBack hcalled
        have hfooting := footing_of_captured (calledBack ho hcalled).1 hthreadIn.symm
          (hworld.isThread hthread) caller method index
        rw [hworld.stepView hthread, hcaptured] at hfooting
        rw [Agent.footing?, hposition, Option.bind_some, ← hfooting]
        rfl
    | _ => cases hkind

/-! ### What a request looks at -/

section Footing

variable {ctx ctx' : Context} {request : Request}

theorem Context.point?_of_footing (hsame : ctx'.footing = ctx.footing) :
    ctx'.point? = ctx.point? := by
  have hdepth : ctx'.frameDepth = ctx.frameDepth := congrArg Footing.frameDepth hsame
  have hposition : ctx'.position = ctx.position := congrArg Footing.position hsame
  have hline : ctx'.line = ctx.line := congrArg Footing.line hsame
  rw [point?, point?, hdepth, hposition, hline]

theorem Request.advance_of_footing (hsame : ctx'.footing = ctx.footing) (request : Request) :
    request.advance ctx' = request.advance ctx := by
  have hfilter : Filter.advance ctx' = Filter.advance ctx := by
    funext filter
    cases filter with
    | step state => rw [Filter.advance, Filter.advance, Context.point?_of_footing hsame]
    | _ => rfl
  rw [Request.advance, hfilter, Request.advance]

/-- A filter that names no object and waits for no step looks at the footing only. -/
theorem Filter.accepts_of_footing {filter : Filter} (hnamed : filter.named? = none)
    (hstep : filter.stepState? = none) (hsame : ctx'.footing = ctx.footing) (vm vm' : Vm)
    (tracker tracker' : Tracker) (stepThread stepThread' : Option Handle) :
    filter.accepts vm' tracker' ctx' stepThread' = filter.accepts vm tracker ctx stepThread := by
  have hclassName : ctx'.className = ctx.className := congrArg Context.Footing.className hsame
  have hposition : ctx'.position = ctx.position := congrArg Context.Footing.position hsame
  have hcaught : ctx'.caught = ctx.caught := congrArg Context.Footing.caught hsame
  cases filter with
  | count => rfl
  | classMatch | classExclude => rw [accepts, accepts, hclassName]
  | locationOnly => rw [accepts, accepts, hposition]
  | exceptionOnly refType =>
      have hzero : refType = 0 := by
        rw [named?] at hnamed
        by_contra hrefType
        rw [if_neg hrefType] at hnamed
        cases hnamed
      simp [accepts, hcaught, hzero]
  | step => cases hstep
  | threadOnly | classOnly | instanceOnly => cases hnamed

/-- Filters that wait for no step and name no object accept one footing wherever it is seen. -/
theorem Sighting.acceptsElse_of_footing {s t : Sighting} (hsame : t.ctx.footing = s.ctx.footing)
    (hunnamed : ∀ filter ∈ request.filters, filter.named? = none) :
    t.acceptsElse request ↔ s.acceptsElse request := by
  refine forall₂_congr fun filter hmem => forall_congr' fun hstep => ?_
  rw [Filter.accepts_of_footing (hunnamed filter hmem) hstep hsame]

end Footing

/-! ### Where an event was -/

/-- The request of an event, with the method and the index of its position. -/
def Event.stop (event : Event) : RequestId × Option (MethodId × Nat) :=
  (event.requestId, event.details.location?.map fun location => (location.methodId, location.index))

theorem returns_site (method : MethodId) (index : CodeIndex) :
    (Capture.site method index).Returns fun site =>
      site.location.methodId = method ∧ site.location.index = index.toNat := by
  refine returns_after fun cls => returns_withLocal (returns_after fun _ => ?_)
  have hlocation : (Positions.locationIn cls method index).Returns fun location =>
      location.methodId = method ∧ location.index = index.toNat :=
    returns_after fun _ => returns_pure ⟨rfl, rfl⟩
  exact returns_bind hlocation fun location hat =>
    returns_after fun _ => returns_after fun _ => returns_pure hat

/-- The event of a step tells the position that was seen. -/
theorem location_of_sighting {sighting : Sighting} (hsighting : a.sighting? op = some sighting)
    (hkind : sighting.kind = .singleStep) :
    (sighting.ctx.details.location?.map fun location => (location.methodId, location.index)) =
      sighting.ctx.footing.position.map fun position => (position.1, position.2.toNat) := by
  obtain ⟨kind, ctx, seen⟩ := sighting
  obtain ⟨near, caller, c, -, hcaptured, rfl⟩ := Agent.sighting?_eq_some hsighting
  have hperform := perform_capture_of_captured hcaptured
  cases c with
  | singleStep thread method index =>
      have hreturns : (Capture.capture (near.wantsReceiver .singleStep)
          (.singleStep thread method index)).Returns fun ctx =>
            (ctx.details.location?.map fun location => (location.methodId, location.index)) =
              ctx.position.map fun position => (position.1, position.2.toNat) := by
        refine returns_after fun _ => returns_bind (returns_site method index) fun spot hat => ?_
        refine returns_after fun _ => returns_after fun _ => returns_after fun _ => returns_pure ?_
        simp [EventDetails.location?, Capture.atSite, hat.1, hat.2]
      exact hreturns _ ctx seen hperform
  | _ => cases hkind

end DebugAgent
