import DebugAgent.Proofs.Settled
import Mathlib.Data.Finset.Card
import Mathlib.Data.Finset.Range

/-!
# Classes in the place of others

A value of one class can be kept where one of another is expected if the other stands above it, as its
superclass, as one of its interfaces or further up, or if it is the class of all objects.  The last is
decided without a look at the hierarchy, but the hierarchy says the same: every class stands below the
class of all objects in the end, and nothing stands above that one.  So what can be kept in the place
of a second can be kept in the place of a third if the second can, and a filter for a class lets
through whatever one for a class below it does.

The search upwards takes a bound.  As long as no class stands above itself, no way up is longer than
there are objects, and the bound makes no difference.
-/

namespace DebugAgent

open DebugAgent.Action Command
open Relation (ReflTransGen TransGen)

namespace Vm

variable {vm vm' : Vm} {cls sub mid sup next : HeapId}

/-- A class stands directly below its interfaces and its superclass. -/
def Extends (vm : Vm) (cls sup : HeapId) : Prop :=
  ∃ body, vm.classAt? cls = some body ∧ (sup ∈ body.interfaces ∨ body.superclass = some sup)

/-- Only classes stand above a class, and no class stands above itself. -/
structure ProperHierarchy (vm : Vm) : Prop where
  isClass : ∀ {cls sup}, vm.Extends cls sup → (vm.classAt? sup).isSome
  acyclic : ∀ cls, ¬ TransGen vm.Extends cls cls

theorem extends_congr (hclasses : vm'.classAt? = vm.classAt?) : vm'.Extends = vm.Extends := by
  funext cls sup
  rw [Extends, Extends, hclasses]

theorem size_of_extends (h : vm.Extends cls sup) : cls < vm.heap.size := by
  obtain ⟨body, hclass, -⟩ := h
  obtain ⟨object, hobject, -⟩ := Option.bind_eq_some_iff.mp ((classAt?_eq vm cls).symm.trans hclass)
  exact (Array.getElem?_eq_some_iff.mp hobject).1

theorem size_of_transGen (h : TransGen vm.Extends cls sup) : cls < vm.heap.size := by
  obtain ⟨next, hnext, -⟩ := TransGen.head'_iff.mp h
  exact size_of_extends hnext

/-- A hierarchy is proper if only classes stand above a class, and all of them are older. -/
theorem properHierarchy_of_older (hall : ∀ cls < vm.heap.size, ∀ body ∈ vm.classAt? cls,
    ∀ sup ∈ body.interfaces ++ body.superclass.toList, sup < cls ∧ (vm.classAt? sup).isSome) :
    vm.ProperHierarchy := by
  have hstep : ∀ {cls sup}, vm.Extends cls sup → sup < cls ∧ (vm.classAt? sup).isSome := by
    intro cls sup hextends
    obtain ⟨body, hclass, habove⟩ := id hextends
    exact hall cls (size_of_extends hextends) body hclass sup (by simpa using habove)
  have hlt : ∀ {cls sup}, TransGen vm.Extends cls sup → sup < cls := by
    intro cls sup habove
    induction habove with
    | single hextends => exact (hstep hextends).1
    | tail _ hextends ih => exact Nat.lt_trans (hstep hextends).1 ih
  exact ⟨fun hextends => (hstep hextends).2, fun cls habove => Nat.lt_irrefl cls (hlt habove)⟩

/-! ### The search for a class above -/

theorem assignableWithin_zero : vm.assignableWithin sup 0 sub ↔ sub = sup ∨ sup = objectClass := by
  simp [assignableWithin]

theorem assignableWithin_succ {depth : Nat} : vm.assignableWithin sup (depth + 1) sub ↔
    sub = sup ∨ sup = objectClass ∨
      ∃ next, vm.Extends sub next ∧ vm.assignableWithin sup depth next := by
  rw [assignableWithin]
  cases hclass : vm.classAt? sub with
  | none => simp [Extends, hclass]
  | some body =>
      simp only [Extends, hclass, Bool.or_eq_true, decide_eq_true_eq, List.any_eq_true,
        Option.any_eq_true, Option.some.injEq, exists_eq_left', or_and_right, exists_or, or_assoc]

/-- The search ends at once where it starts, and for the class of all objects. -/
theorem assignableWithin_at_once (h : sub = sup ∨ sup = objectClass) (depth : Nat) :
    vm.assignableWithin sup depth sub := by
  cases depth with
  | zero => exact assignableWithin_zero.mpr h
  | succ depth => exact assignableWithin_succ.mpr (h.imp_right .inl)

/-- What the search finds is above. -/
theorem above_of_assignableWithin {depth : Nat} (h : vm.assignableWithin sup depth sub) :
    sup = objectClass ∨ ReflTransGen vm.Extends sub sup := by
  induction depth generalizing sub with
  | zero =>
      rcases assignableWithin_zero.mp h with rfl | hobject
      · exact .inr .refl
      · exact .inl hobject
  | succ depth ih =>
      rcases assignableWithin_succ.mp h with rfl | hobject | ⟨next, hstep, hnext⟩
      · exact .inr .refl
      · exact .inl hobject
      · exact (ih hnext).imp_right fun habove => .head hstep habove

/-- The search finds what is above, if together with the classes on the way so far it may go through
as many as there are objects. -/
theorem assignableWithin_of_above (hacyclic : ∀ cls, ¬ TransGen vm.Extends cls cls)
    (h : ReflTransGen vm.Extends sub sup) {depth : Nat} (way : Finset HeapId)
    (hway : ∀ cls ∈ way, TransGen vm.Extends cls sub) (hbound : vm.heap.size ≤ depth + way.card) :
    vm.assignableWithin sup depth sub := by
  induction h using ReflTransGen.head_induction_on generalizing depth way with
  | refl => exact assignableWithin_at_once (.inl rfl) depth
  | @head sub next hstep _ ih =>
      have hfresh : sub ∉ way := fun hmem => hacyclic sub (hway sub hmem)
      have hcard : (insert sub way).card = way.card + 1 := Finset.card_insert_of_notMem hfresh
      have hlonger : ∀ cls ∈ insert sub way, TransGen vm.Extends cls next := by
        intro cls hmem
        rcases Finset.mem_insert.mp hmem with rfl | hmem
        · exact .single hstep
        · exact .tail (hway cls hmem) hstep
      have hsize : (insert sub way).card ≤ vm.heap.size := by
        rw [← Finset.card_range vm.heap.size]
        exact Finset.card_le_card fun cls hmem =>
          Finset.mem_range.mpr (size_of_transGen (hlonger cls hmem))
      cases depth with
      | zero => omega
      | succ depth =>
          have hnext : vm.assignableWithin sup depth next := ih _ hlonger (by omega)
          exact assignableWithin_succ.mpr (.inr (.inr ⟨next, hstep, hnext⟩))

/-- Without cycles the search upwards finds exactly what is above. -/
theorem assignable_iff (hacyclic : ∀ cls, ¬ TransGen vm.Extends cls cls) :
    vm.assignable sub sup ↔ sup = objectClass ∨ ReflTransGen vm.Extends sub sup := by
  constructor
  · exact above_of_assignableWithin
  · rintro (hobject | habove)
    · exact assignableWithin_at_once (.inr hobject) _
    · exact assignableWithin_of_above hacyclic habove ∅ (by simp) (Nat.le_add_right _ _)

/-- Objects that are no classes make no difference. -/
theorem assignable_of_classes (hclasses : vm'.classAt? = vm.classAt?)
    (hacyclic : ∀ cls, ¬ TransGen vm.Extends cls cls) : vm'.assignable = vm.assignable := by
  have hextends := extends_congr hclasses
  funext sub sup
  rw [Bool.eq_iff_iff, assignable_iff hacyclic, assignable_iff (hextends ▸ hacyclic), hextends]

/-- A class can be kept in its own place. -/
theorem assignable_refl (vm : Vm) (cls : HeapId) : vm.assignable cls cls :=
  assignableWithin_at_once (.inl rfl) _

end Vm

/-! ### The class above all -/

namespace Agent.Reachable

variable {a : Agent} (h : a.Reachable) (hproper : a.vm.ProperHierarchy)
include h hproper

/-- Every class stands below the class of all objects. -/
theorem below_object {cls : HeapId} (hclass : (a.vm.classAt? cls).isSome) :
    ReflTransGen a.vm.Extends cls Vm.objectClass := by
  induction cls using Nat.strongRecOn with
  | ind cls ih =>
      obtain ⟨body, hbody⟩ := Option.isSome_iff_exists.mp hclass
      cases hsuper : body.superclass with
      | none =>
          rw [(h.superclass_eq_none_iff hbody).mp hsuper]
      | some sup =>
          have hstep : a.vm.Extends cls sup := ⟨body, hbody, .inr hsuper⟩
          exact .head hstep (ih sup (h.layered.older hbody hsuper) (hproper.isClass hstep))

/-- Nothing stands above the class of all objects. -/
theorem eq_object_of_above {sup : HeapId} (habove : ReflTransGen a.vm.Extends Vm.objectClass sup) :
    sup = Vm.objectClass := by
  rcases ReflTransGen.cases_head habove with heq | ⟨next, hstep, -⟩
  · exact heq.symm
  · have hreturns := h.below_object hproper (hproper.isClass hstep)
    exact absurd (TransGen.head' hstep hreturns) (hproper.acyclic Vm.objectClass)

/-- What can be kept in the place of a second class can be kept wherever the second can. -/
theorem assignable_trans {sub mid sup : HeapId} (hsub : a.vm.assignable sub mid)
    (hmid : a.vm.assignable mid sup) : a.vm.assignable sub sup := by
  rw [Vm.assignable_iff hproper.acyclic] at *
  rcases hmid with hobject | habove
  · exact .inl hobject
  · rcases hsub with rfl | hbelow
    · exact .inl (h.eq_object_of_above hproper habove)
    · exact .inr (hbelow.trans habove)

end Agent.Reachable

/-! ### What is seen of a callback -/

section Sightings

variable {a near : Agent} {op : Op} {sighting : Sighting} {id : ObjectId} {object : HeapId}

theorem tracker_of_calledBack {caller : NativeThread} {c : Callback Handle}
    (hcalled : a.calledBack? op = some (near, caller, c)) : near.tracker = a.tracker := by
  cases op with
  | callback =>
      cases hcalled
      rfl
  | deliver _ happening =>
      rw [Agent.calledBack?] at hcalled
      dsimp only at hcalled
      split at hcalled
      · cases hcalled
        rfl
      · cases hcalled
  | _ => cases hcalled

/-- What is seen of a callback is left behind by a look at the machine. -/
theorem looks_of_sighting (hsighting : a.sighting? op = some sighting) :
    ∃ (near : Agent) (x : Command Context), a.vm.KeepsWorld near.vm ∧ near.tracker = a.tracker ∧
      Looks Control.Any x ∧ (x.perform near).2 = sighting.seen := by
  obtain ⟨kind, ctx, seen⟩ := sighting
  obtain ⟨near, caller, c, hcalled, hcaptured, -⟩ := Agent.sighting?_eq_some hsighting
  exact ⟨near, _, keepsWorld_of_calledBack hcalled, tracker_of_calledBack hcalled,
    looks_captured (near.wantsReceiver c.kind.eventKind) caller c, congrArg Prod.snd hcaptured⟩

theorem keepsWorld_of_sighting (hsighting : a.sighting? op = some sighting) :
    a.vm.KeepsWorld sighting.seen.vm := by
  obtain ⟨near, x, hworld, -, hlooks, hseen⟩ := looks_of_sighting hsighting
  rw [← hseen]
  exact hworld.trans (hlooks.keepsWorld.perform near)

/-- Identifiers designate what they did before the callback. -/
theorem target?_of_sighting (ho : InOrder a) (hs : HoldsSoundly a)
    (hsighting : a.sighting? op = some sighting) (hlive : a.tracker.target? a.vm id = some object) :
    sighting.seen.tracker.target? sighting.seen.vm id = some object := by
  have hunfolds := (evolves_of_sighting ho.toOrderly hsighting).unfolds
  have hdesignates : a.Designates id object := hs.target?_eq_some.mp hlive
  have huse : sighting.seen.Knows id := by
    obtain ⟨near, x, -, htracker, hlooks, hseen⟩ := looks_of_sighting hsighting
    rw [← hseen]
    exact hlooks.knows (hdesignates.knows.of_tracker_eq htracker)
  exact (hs.unfolds ho.toOrderly hunfolds).target?_eq_some.mpr
    (hdesignates.unfolds ho hs hunfolds huse)

end Sightings

/-! ### Filters for classes -/

namespace Filter

variable {a : Agent} {id : ObjectId} {target : HeapId}

/-- What the test of a filter tells is whether the filter accepts. -/
theorem perform_check (hb : a.vm.RefsBounded) (ctx : Context) (stepThread : Option Handle)
    (filter : Filter) : ((filter.check ctx stepThread).perform a).1 =
      .ok (filter.accepts a.vm a.tracker ctx stepThread) := by
  obtain ⟨more, htold⟩ := tells_check hb ctx stepThread filter 0
  rw [Agent.spend_zero] at htold
  rw [htold]

theorem isKindOf_iff (hlive : a.tracker.target? a.vm id = some target) {kind : Option HeapId} :
    isKindOf a.vm a.tracker id kind ↔ ∃ cls ∈ kind, a.vm.assignable cls target := by
  cases kind with
  | none => simp [isKindOf]
  | some cls => simp [isKindOf, hlive]

theorem passes_classOnly_iff (hb : a.vm.RefsBounded)
    (hlive : a.tracker.target? a.vm id = some target) (ctx : Context)
    (stepThread : Option Handle) :
    ((check ctx stepThread (.classOnly id)).perform a).1 = .ok true ↔
      ∃ cls ∈ ctx.cls, a.vm.assignable cls target := by
  rw [perform_check hb, Except.ok.injEq, accepts]
  exact isKindOf_iff hlive

/-- The type 0 stands for all types, but no identifier is 0. -/
theorem passes_exceptionOnly_iff (ho : InOrder a)
    (hlive : a.tracker.target? a.vm id = some target) (ctx : Context)
    (stepThread : Option Handle) (caught uncaught : Bool) :
    ((check ctx stepThread (.exceptionOnly id caught uncaught)).perform a).1 = .ok true ↔
      (if ctx.caught then caught else uncaught) ∧
        ∃ cls ∈ ctx.exceptionClass, a.vm.assignable cls target := by
  have hnonzero : id ≠ 0 := by
    rintro rfl
    rw [target?_zero ho.ids] at hlive
    cases hlive
  rw [perform_check ho.refs, Except.ok.injEq, accepts, Bool.and_eq_true, decide_eq_false hnonzero,
    Bool.false_or]
  exact and_congr_right fun _ => isKindOf_iff hlive

end Filter

/-- In a hierarchy without cycles, a class can be kept in the place of the classes and interfaces
above it and of the class of all objects, so in its own place, and wherever another class can be in
whose place it can be kept.  When the agent is called back, identifiers designate what they did
before and what can be kept where has not changed.  A filter for a class lets pass what happens in a
class, or what throws an exception of a class, that can be kept in its place.  So if the class behind
one identifier can be kept in the place of the class behind another, whatever a filter for the first
lets pass is let pass by the same filter for the second. -/
theorem filters_widen_with_class {a : Agent} (h : a.Reachable) (hproper : a.vm.ProperHierarchy) :
    (∀ sub sup, a.vm.assignable sub sup ↔
      sup = Vm.objectClass ∨ ReflTransGen a.vm.Extends sub sup) ∧
    (∀ cls, a.vm.assignable cls cls) ∧
    (∀ {sub mid sup}, a.vm.assignable sub mid → a.vm.assignable mid sup →
      a.vm.assignable sub sup) ∧
    ∀ op sighting, a.sighting? op = some sighting →
      let seen := sighting.seen
      (∀ id object, a.tracker.target? a.vm id = some object →
        seen.tracker.target? seen.vm id = some object) ∧
      seen.vm.assignable = a.vm.assignable ∧
      ∀ stepThread,
        let tested (filter : Filter) := ((filter.check sighting.ctx stepThread).perform seen).1
        (∀ id target, seen.tracker.target? seen.vm id = some target →
          (tested (.classOnly id) = .ok true ↔
            ∃ cls ∈ sighting.ctx.cls, a.vm.assignable cls target) ∧
          ∀ caught uncaught, tested (.exceptionOnly id caught uncaught) = .ok true ↔
            (if sighting.ctx.caught then caught else uncaught) ∧
              ∃ cls ∈ sighting.ctx.exceptionClass, a.vm.assignable cls target) ∧
        ∀ below above sub sup, seen.tracker.target? seen.vm below = some sub →
          seen.tracker.target? seen.vm above = some sup → a.vm.assignable sub sup →
          (tested (.classOnly below) = .ok true → tested (.classOnly above) = .ok true) ∧
          ∀ caught uncaught, tested (.exceptionOnly below caught uncaught) = .ok true →
            tested (.exceptionOnly above caught uncaught) = .ok true := by
  refine ⟨fun _ _ => Vm.assignable_iff hproper.acyclic, a.vm.assignable_refl,
    h.assignable_trans hproper, fun op sighting hsighting => ?_⟩
  intro seen
  have hsame : seen.vm.assignable = a.vm.assignable :=
    Vm.assignable_of_classes (keepsWorld_of_sighting hsighting).classes hproper.acyclic
  have hseen : InOrder seen :=
    h.inOrder.unfolds (evolves_of_sighting h.orderly hsighting).unfolds
  refine ⟨fun id object => target?_of_sighting h.inOrder h.consistent.holds hsighting, hsame, ?_⟩
  intro stepThread tested
  have hclass : ∀ id target, seen.tracker.target? seen.vm id = some target →
      (tested (.classOnly id) = .ok true ↔
        ∃ cls ∈ sighting.ctx.cls, a.vm.assignable cls target) := by
    intro id target hlive
    rw [← hsame]
    exact Filter.passes_classOnly_iff hseen.refs hlive sighting.ctx stepThread
  have hexception : ∀ id target, seen.tracker.target? seen.vm id = some target →
      ∀ caught uncaught, tested (.exceptionOnly id caught uncaught) = .ok true ↔
        (if sighting.ctx.caught then caught else uncaught) ∧
          ∃ cls ∈ sighting.ctx.exceptionClass, a.vm.assignable cls target := by
    intro id target hlive
    rw [← hsame]
    exact Filter.passes_exceptionOnly_iff hseen hlive sighting.ctx stepThread
  refine ⟨fun id target hlive => ⟨hclass id target hlive, hexception id target hlive⟩, ?_⟩
  intro below above sub sup hbelow habove hassignable
  have hwider : ∀ {kind : Option HeapId}, (∃ cls ∈ kind, a.vm.assignable cls sub) →
      ∃ cls ∈ kind, a.vm.assignable cls sup := by
    rintro kind ⟨cls, hkind, hcls⟩
    exact ⟨cls, hkind, h.assignable_trans hproper hcls hassignable⟩
  constructor
  · rw [hclass below sub hbelow, hclass above sup habove]
    exact hwider
  · intro caught uncaught
    rw [hexception below sub hbelow, hexception above sup habove]
    exact And.imp_right hwider

/-- The client knows a class as object 1, and an interface two steps above it as object 2.  A thread
runs a method of a class below them, and the client wants to be told of exceptions. -/
def failing : Agent :=
  (Agent.start Vm.fresh {}).run
    [.setup (.defineInterface "LTask;"), .setup (.defineInterface "LJob;"),
      .setup (.addInterface 10 9), .setup (.defineClass "LFailure;"), .setup (.addInterface 11 10),
      .setup (.defineSubclass "LTimeout;" 11),
      .setup (.addMethod 12 { name := "run", signature := "()V" }), .setup (.spawnThread "main"),
      .setup (.newObject 12), .setup (.pushFrame 13 0x1000 5),
      .command (.client 0) (.classesBySignature "LFailure;"),
      .command (.client 0) (.classesBySignature "LTask;"),
      .command (.client 0) (.setEvent EventKind.exception.code .none [])]

/-- When an object of the class below is thrown in the method, filters for the class let it pass, and
so do filters for the interface. -/
theorem timeout_passes_as_task : failing.Reachable ∧ failing.vm.ProperHierarchy ∧
    let thrown : Op := .deliver (.client 0) (.exception 13 0x1000 5 14 none)
    ∃ sighting, failing.sighting? thrown = some sighting ∧
      failing.tracker.target? failing.vm 1 = some 11 ∧
      failing.tracker.target? failing.vm 2 = some 9 ∧
      ((Filter.check sighting.ctx none (.classOnly 2)).perform sighting.seen).1 = .ok true ∧
      ((Filter.check sighting.ctx none (.exceptionOnly 2 false true)).perform sighting.seen).1 =
        .ok true := by
  have hreachable : failing.Reachable := by
    apply Agent.Reachable.run (.start {})
    decide +kernel
  have hproper : failing.vm.ProperHierarchy := Vm.properHierarchy_of_older (by decide +kernel)
  have hbelow : failing.tracker.target? failing.vm 1 = some 11 := by decide +kernel
  have habove : failing.tracker.target? failing.vm 2 = some 9 := by decide +kernel
  have hassignable : failing.vm.assignable 11 9 := by decide +kernel
  refine ⟨hreachable, hproper, ?_⟩
  intro thrown
  obtain ⟨sighting, hsighting, hpasses⟩ : ∃ sighting, failing.sighting? thrown = some sighting ∧
      (((Filter.check sighting.ctx none (.classOnly 1)).perform sighting.seen).1,
        ((Filter.check sighting.ctx none (.exceptionOnly 1 false true)).perform
          sighting.seen).1) = (.ok true, .ok true) :=
    Option.map_eq_some_iff.mp (by decide +kernel)
  obtain ⟨hclass, hexception⟩ := Prod.mk.inj hpasses
  obtain ⟨hlasts, -, hfilters⟩ :=
    (filters_widen_with_class hreachable hproper).2.2.2 thrown sighting hsighting
  obtain ⟨hpassed, hpassed'⟩ :=
    (hfilters none).2 1 2 11 9 (hlasts 1 11 hbelow) (hlasts 2 9 habove) hassignable
  exact ⟨sighting, hsighting, hbelow, habove, hpassed hclass, hpassed' false true hexception⟩

end DebugAgent
