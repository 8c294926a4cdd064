import DebugAgent.Proofs.StepView
import DebugAgent.Proofs.Unbroken

/-!
# Classes and the classes above them

A class is defined below a class that is there already, and stays below it.  So a class is younger
than the class above it, in every machine that an agent can meet, and nobody who asks for one
superclass after the other goes on forever.  The class of all objects alone has no class above it.
-/

namespace DebugAgent

open DebugAgent.Action
open Relation (ReflTransGen)

namespace Vm

variable {vm vm' : Vm} {id cls sup : HeapId}

/-- The superclass that can be asked for: interfaces have none, and what is no class has none. -/
def superclassAt? (vm : Vm) (cls : HeapId) : Option HeapId :=
  (vm.classAt? cls).bind fun body => if body.isInterface then none else body.superclass

/-- Asking for superclasses leads from one class up to the other. -/
def Inherits (vm : Vm) : HeapId → HeapId → Prop :=
  ReflTransGen fun cls sup => vm.superclassAt? cls = some sup

/-- A class is younger than the class above it. -/
structure Layered (vm : Vm) : Prop where
  older : ∀ {id body sup}, vm.classAt? id = some body → body.superclass = some sup → sup < id

theorem superclass?_eq {h : Handle} (htarget : vm.target? h = some cls) :
    vm.superclass? h = vm.superclassAt? cls := by
  rw [superclass?, htarget, Option.bind_some, superclassAt?]
  cases vm.classAt? cls <;> rfl

namespace Layered

theorem superclassAt?_lt (h : vm.Layered) (hsuper : vm.superclassAt? cls = some sup) :
    sup < cls := by
  obtain ⟨body, hclass, hsuper⟩ := Option.bind_eq_some_iff.mp hsuper
  split at hsuper
  · cases hsuper
  · exact h.older hclass hsuper

/-- The way up from a class ends. -/
theorem wellFounded (h : vm.Layered) :
    WellFounded fun sup cls => vm.superclassAt? cls = some sup :=
  Subrelation.wf (fun hsuper => h.superclassAt?_lt hsuper) Nat.lt_wfRel.wf

theorem le_of_inherits (h : vm.Layered) (hinherits : vm.Inherits cls sup) : sup ≤ cls := by
  induction hinherits with
  | refl => exact Nat.le_refl cls
  | tail _ hstep ih => exact Nat.le_trans (Nat.le_of_lt (h.superclassAt?_lt hstep)) ih

theorem of_classes (h : vm.Layered) (hclasses : vm'.classAt? = vm.classAt?) : vm'.Layered := by
  refine ⟨fun hclass => ?_⟩
  rw [hclasses] at hclass
  exact h.older hclass

end Layered

/-! ### Steps of the debugged world -/

/-- Something is so of every class and the superclass that it was defined with. -/
def EachClass (vm : Vm) (P : HeapId → Option HeapId → Prop) : Prop :=
  ∀ ⦃id body⦄, vm.classAt? id = some body → P id body.superclass

namespace EachClass

variable {P : HeapId → Option HeapId → Prop}

theorem of_classes (h : vm.EachClass P) (hclasses : vm'.classAt? = vm.classAt?) :
    vm'.EachClass P := by
  intro id body hclass
  rw [hclasses] at hclass
  exact h hclass

/-- Objects that are no classes come along. -/
theorem allocate (h : vm.EachClass P) (cls : HeapId) (body : Body)
    (hbody : ∀ declared, body = .classObject declared → P vm.heap.size declared.superclass) :
    (vm.allocate cls body).2.EachClass P := by
  intro id found hclass
  rw [classAt?_eq, heap_allocate] at hclass
  split at hclass
  · rename_i hid
    cases body with
    | classObject =>
        cases hclass
        exact hid ▸ hbody _ rfl
    | _ => cases hclass
  · rw [← classAt?_eq] at hclass
    exact h hclass

theorem setBody (h : vm.EachClass P) (id : HeapId) (body : Body)
    (hbody : ∀ declared, body = .classObject declared → P id declared.superclass) :
    (vm.setBody id body).EachClass P := by
  intro other found hclass
  rw [classAt?_eq, heap_setBody] at hclass
  split at hclass
  · rename_i hid
    subst hid
    obtain ⟨object, hobject, hfound⟩ := Option.bind_eq_some_iff.mp hclass
    obtain ⟨before, -, rfl⟩ := Option.map_eq_some_iff.mp hobject
    cases body with
    | classObject =>
        cases hfound
        exact hbody _ rfl
    | _ => cases hfound
  · rw [← classAt?_eq] at hclass
    exact h hclass

theorem changeClass (h : vm.EachClass P) {f : ClassBody → ClassBody}
    (hf : ∀ body, (f body).superclass = body.superclass) (id : HeapId) :
    (vm.after (changeClass id f)).EachClass P := by
  simp only [after, Vm.changeClass, perform_bind, perform_look]
  cases hclass : vm.classAt? id with
  | none => exact h
  | some body =>
      refine h.setBody id (.classObject (f body)) fun declared hdeclared => ?_
      cases hdeclared
      exact hf body ▸ h hclass

theorem changeThread (h : vm.EachClass P) (id : HeapId) (f : ThreadBody → ThreadBody) :
    (vm.after (changeThread id f)).EachClass P := by
  rw [after_changeThread]
  cases hthread : vm.threadAt? id with
  | none => exact h
  | some body => exact h.of_classes (classAt?_setThread hthread (f body))

theorem addField (h : vm.EachClass P) (decl : FieldDecl) :
    (vm.after (Vm.addField decl)).EachClass P := by
  have hnear : ({ vm with
      fields := vm.fields.insert vm.nextField decl, nextField := vm.nextField + 1 } : Vm).EachClass P :=
    h.of_classes rfl
  have hclass := hnear.changeClass (f := fun body =>
    { body with fields := body.fields ++ [vm.nextField] }) (fun _ => rfl) decl.cls
  rwa [← Closed.after_bind_pure _ vm.nextField] at hclass

theorem addMethod (h : vm.EachClass P) (cls : HeapId) (spec : MethodSpec) :
    (vm.after (Vm.addMethod cls spec)).EachClass P := by
  have hnear : ({ vm with
      methods := vm.methods.insert vm.nextMethod ⟨cls, spec⟩
      nextMethod := vm.nextMethod + 8 } : Vm).EachClass P := h.of_classes rfl
  have hclass := hnear.changeClass (f := fun body =>
    { body with methods := body.methods ++ [vm.nextMethod] }) (fun _ => rfl) cls
  rwa [← Closed.after_bind_pure _ vm.nextMethod] at hclass

theorem setField (h : vm.EachClass P) (object : HeapId) (field : FieldId) (value : Stored) :
    (vm.after (Vm.setField object field value)).EachClass P := by
  simp only [after, Vm.setField, perform_bind, perform_look]
  cases vm.heap[object]? with
  | none => exact h
  | some target =>
      obtain ⟨cls, tag, body⟩ := target
      cases body with
      | fields values => exact h.setBody object _ fun _ hdeclared => by cases hdeclared
      | _ => exact h

section Below

variable (hbelow : ∀ {id sup}, sup < id → P id (some sup))
include hbelow

theorem addClass (h : vm.EachClass P) {superclass : HeapId} (hsuper : superclass < vm.heap.size)
    (signature : String) (isInterface isArray : Bool) :
    (vm.addClass signature (some superclass) isInterface isArray).2.EachClass P := by
  refine h.allocate classClass _ fun declared hdeclared => ?_
  cases hdeclared
  exact hbelow hsuper

theorem newArray (h : vm.EachClass P) (hc : vm.Closed) (signature : String)
    (elements : List Stored) : (vm.after (Vm.newArray signature elements)).EachClass P := by
  simp only [after, Vm.newArray, perform_bind, perform_look]
  cases vm.arrayClass? signature with
  | some id => exact h.allocate id _ fun _ hdeclared => by cases hdeclared
  | none =>
      have hclass := addClass hbelow h (hc.lt_of_builtin objectClass (by decide)) signature false true
      exact hclass.allocate _ _ fun _ hdeclared => by cases hdeclared

/-- What is so of a class below any older one stays so of every class. -/
theorem setup (h : vm.EachClass P) (hc : vm.Closed) {step : Setup} (hnames : vm.Has step.objects) :
    (step.apply vm).EachClass P := by
  have hobject : objectClass < vm.heap.size := hc.lt_of_builtin objectClass (by decide)
  cases step with
  | defineClass | defineInterface => exact addClass hbelow h hobject _ _ _
  | defineSubclass signature superclass => exact addClass hbelow h (has_cons.mp hnames).1 _ _ _
  | addInterface | setClassStatus | setClassModifiers | setSourceFile | setGenericSignature =>
      refine h.changeClass ?_ _
      exact fun _ => rfl
  | addStaticField | addInstanceField => exact h.addField _
  | addMethod cls spec => exact h.addMethod cls spec
  | newObject | newString | spawnThread =>
      refine h.allocate _ _ ?_
      rintro _ ⟨⟩
  | setField object field value => exact h.setField object field value
  | newArray signature elements => exact newArray hbelow h hc signature elements
  | failSuspend | setThreadState | terminateThread | pushFrame | popFrame | setTopLocation
  | setLocal => exact h.changeThread _ _
  | setAttachFails | setProperty | takeRef => exact h.of_classes rfl
  | poisonField field =>
      show (vm.after (Vm.poisonField field)).EachClass P
      simp only [after, Vm.poisonField, perform_change]
      split
      · exact h.of_classes rfl
      · exact h

end Below

theorem fresh (hP : ∀ id < Vm.fresh.heap.size, ∀ body ∈ Vm.fresh.classAt? id, P id body.superclass) :
    Vm.fresh.EachClass P := by
  intro id body hclass
  refine hP id ?_ body hclass
  obtain ⟨object, hobject, -⟩ :=
    Option.bind_eq_some_iff.mp ((classAt?_eq Vm.fresh id).symm.trans hclass)
  exact (Array.getElem?_eq_some_iff.mp hobject).1

end EachClass

end Vm

namespace Agent.Reachable

variable {a : Agent}

/-- What is so of the classes that every machine has, and of a class below any older one, is so of
every class in a reachable state. -/
theorem eachClass (h : a.Reachable) {P : HeapId → Option HeapId → Prop}
    (hfresh : Vm.fresh.EachClass P) (hbelow : ∀ {id sup}, sup < id → P id (some sup)) :
    a.vm.EachClass P := by
  induction h with
  | start => exact hfresh.of_classes rfl
  | restart _ _ ih => exact ih.of_classes rfl
  | @apply a h op hnames ih =>
      cases hop : op.isWorldly with
      | false => exact ih.of_classes (keepsWorld_apply hop a).classes
      | true =>
          cases op with
          | setup step => exact Vm.EachClass.setup hbelow ih h.intact.closed hnames
          | _ => cases hop

/-- In a reachable state the classes are layered. -/
theorem layered (h : a.Reachable) : a.vm.Layered := by
  have hall := h.eachClass (P := fun id superclass => ∀ sup ∈ superclass, sup < id)
    (.fresh (by decide +kernel)) fun hlt _ hsup => Option.mem_some_iff.mp hsup ▸ hlt
  exact ⟨fun hclass hsuper => hall hclass _ hsuper⟩

/-- In a reachable state the class of all objects is the only one without a class above it. -/
theorem superclass_eq_none_iff (h : a.Reachable) {cls : HeapId} {body : ClassBody}
    (hclass : a.vm.classAt? cls = some body) : body.superclass = none ↔ cls = Vm.objectClass := by
  have hfresh : ∀ id < Vm.fresh.heap.size, ∀ body ∈ Vm.fresh.classAt? id,
      body.superclass = none ↔ id = Vm.objectClass := by decide +kernel
  refine h.eachClass (P := fun id superclass => superclass = none ↔ id = Vm.objectClass)
    (.fresh hfresh) (fun {id sup} hlt => ?_) hclass
  have hid : id ≠ Vm.objectClass := Nat.ne_of_gt (Nat.zero_lt_of_lt hlt)
  simp [hid]

end Agent.Reachable

end DebugAgent
