import DebugAgent.Proofs.Answers
import DebugAgent.Proofs.Delivered
import DebugAgent.Proofs.FieldValues

/-!
# What lasts

Whatever happens to a machine, an object stays an instance of the class that it was made of, an array
keeps its elements, and a class its name and kind.  And an object that the client knows by an
identifier stays known by it as long as no identifiers are given back: its tag can change only if the
identifier is no longer in use.  So what the client has been told of an object is what it will be
told again.
-/

namespace DebugAgent

open DebugAgent.Action Command Registration Tracking
open Relation (ReflTransGen)

/-! ### The nature of objects -/

/-- The kind of type that a class is. -/
def ClassBody.kind (body : ClassBody) : TypeKind :=
  if body.isArray then .arrayType else if body.isInterface then .interfaceType else .classType

/-- What never changes about an object: its class, the name and kind of a class, the elements of an
array. -/
structure Nature where
  cls : HeapId
  type? : Option (String × TypeKind)
  elements : List Stored

/-- The elements of an array; other objects have none. -/
def Body.elements : Body → List Stored
  | .array elements => elements
  | _ => []

def HeapObject.nature (object : HeapObject) : Nature where
  cls := object.cls
  type? := object.class?.map fun body => (body.signature, body.kind)
  elements := object.body.elements

namespace Vm

variable {vm vm' vm'' : Vm} {id : HeapId}

def natureAt? (vm : Vm) (id : HeapId) : Option Nature := vm.heap[id]?.map HeapObject.nature

/-- A change of the machine by which no object changes its nature. -/
structure Endures (vm vm' : Vm) : Prop where
  capabilities : vm'.capabilities = vm.capabilities
  natures : ∀ {id nature}, vm.natureAt? id = some nature → vm'.natureAt? id = some nature

theorem natureAt?_eq_some {nature : Nature} : vm.natureAt? id = some nature ↔
    ∃ object, vm.heap[id]? = some object ∧ object.nature = nature :=
  Option.map_eq_some_iff

theorem elementsAt_eq (vm : Vm) (id : HeapId) :
    vm.elementsAt id = (vm.natureAt? id).elim [] Nature.elements := by
  rw [elementsAt, natureAt?]
  cases vm.heap[id]? with
  | none => rfl
  | some object =>
      obtain ⟨cls, tag, body⟩ := object
      cases body <;> rfl

theorem type?_eq (vm : Vm) (id : HeapId) : (vm.natureAt? id).bind Nature.type? =
    (vm.classAt? id).map fun body => (body.signature, body.kind) := by
  rw [natureAt?, classAt?_eq]
  cases vm.heap[id]? <;> rfl

namespace Endures

theorem refl (vm : Vm) : vm.Endures vm := ⟨rfl, id⟩

theorem trans (h : vm.Endures vm') (h' : vm'.Endures vm'') : vm.Endures vm'' :=
  ⟨h'.capabilities.trans h.capabilities, fun hnature => h'.natures (h.natures hnature)⟩

/-- Objects that have been there stay as they are. -/
theorem of_heap (hcapabilities : vm'.capabilities = vm.capabilities)
    (hheap : ∀ {id : HeapId} {object : HeapObject}, vm.heap[id]? = some object →
      ∃ later : HeapObject, vm'.heap[id]? = some later ∧ later.nature = object.nature) : vm.Endures vm' where
  capabilities := hcapabilities
  natures := by
    intro id nature hnature
    obtain ⟨object, hobject, rfl⟩ := natureAt?_eq_some.mp hnature
    exact natureAt?_eq_some.mpr (hheap hobject)

theorem of_heap_eq (hheap : vm'.heap = vm.heap) (hcapabilities : vm'.capabilities = vm.capabilities) :
    vm.Endures vm' :=
  of_heap hcapabilities fun hobject => ⟨_, hheap ▸ hobject, rfl⟩

/-- A class stays one, of the same name and kind. -/
theorem classAt? (h : vm.Endures vm') {body : ClassBody} (hclass : vm.classAt? id = some body) :
    ∃ later, vm'.classAt? id = some later ∧ later.signature = body.signature ∧
      later.kind = body.kind := by
  have htype := type?_eq vm id
  rw [hclass, Option.map_some] at htype
  obtain ⟨nature, hnature, htype⟩ := Option.bind_eq_some_iff.mp htype
  have hlater := type?_eq vm' id
  rw [h.natures hnature, Option.bind_some, htype] at hlater
  obtain ⟨later, hfound, hsame⟩ := Option.map_eq_some_iff.mp hlater.symm
  exact ⟨later, hfound, congrArg Prod.fst hsame, congrArg Prod.snd hsame⟩

/-- An instance of a class stays one. -/
theorem runtimeClass? (h : vm.Endures vm') {object : HeapId} {body : ClassBody}
    (hbody : vm.runtimeClass? object = some body) :
    ∃ later, vm'.runtimeClass? object = some later ∧ later.signature = body.signature := by
  obtain ⟨held, hheld, hclass⟩ := Option.bind_eq_some_iff.mp hbody
  obtain ⟨found, hfound, hnature⟩ := natureAt?_eq_some.mp
    (h.natures (natureAt?_eq_some.mpr ⟨held, hheld, rfl⟩))
  have hcls : found.cls = held.cls := congrArg Nature.cls hnature
  obtain ⟨later, hlater, hsignature, -⟩ := h.classAt? hclass
  refine ⟨later, ?_, hsignature⟩
  rw [Vm.runtimeClass?, hfound, Option.bind_some, hcls, hlater]

/-- An array keeps its elements. -/
theorem elementsAt (h : vm.Endures vm') (hlive : id < vm.heap.size) :
    vm'.elementsAt id = vm.elementsAt id := by
  have hnature : vm.natureAt? id = some vm.heap[id].nature := by
    rw [natureAt?, Array.getElem?_eq_getElem hlive]
    rfl
  rw [elementsAt_eq, elementsAt_eq, hnature, h.natures hnature]

theorem allocate (vm : Vm) (cls : HeapId) (body : Body) : vm.Endures (vm.allocate cls body).2 := by
  refine of_heap rfl fun {id object} hobject => ⟨object, ?_, rfl⟩
  have hlt : id < vm.heap.size := (Array.getElem?_eq_some_iff.mp hobject).1
  rw [heap_allocate, if_neg (Nat.ne_of_lt hlt), hobject]

/-- An object holds something else, which does not change its nature. -/
theorem setBody {body : Body} (hbody : ∀ object, vm.heap[id]? = some object →
    HeapObject.nature { object with body } = object.nature) : vm.Endures (vm.setBody id body) := by
  refine of_heap rfl fun {other object} hobject => ?_
  rw [heap_setBody]
  split
  · rename_i hid
    subst hid
    exact ⟨_, by rw [hobject]; rfl, hbody object hobject⟩
  · exact ⟨object, hobject, rfl⟩

theorem setTagAt (vm : Vm) (id : HeapId) (tag : Int) : vm.Endures (vm.setTagAt id tag) := by
  refine of_heap rfl fun {other object} hobject => ?_
  rw [heap_setTagAt]
  split
  · exact ⟨{ object with tag }, by rw [hobject]; rfl, rfl⟩
  · exact ⟨object, hobject, rfl⟩

theorem setThread {body : ThreadBody} (hbody : vm.threadAt? id = some body) (later : ThreadBody) :
    vm.Endures (vm.setBody id (.thread later)) := by
  refine setBody fun object hobject => ?_
  rw [threadAt?_eq, hobject, Option.bind_some] at hbody
  obtain ⟨cls, tag, held⟩ := object
  cases held <;> first | rfl | cases hbody

theorem attach (vm : Vm) (caller : NativeThread) : vm.Endures (vm.attach caller).2 :=
  of_heap (frame_attach caller).capabilities fun hobject => ⟨_, heap_attach hobject caller, rfl⟩

/-! ### Steps of the debugged world -/

theorem changeClass {f : ClassBody → ClassBody}
    (hf : ∀ body, (f body).signature = body.signature ∧ (f body).kind = body.kind) (vm : Vm)
    (id : HeapId) : vm.Endures (vm.after (changeClass id f)) := by
  simp only [after, Vm.changeClass, perform_bind, perform_look]
  cases hclass : vm.classAt? id with
  | none => exact .refl vm
  | some body =>
      refine setBody fun object hobject => ?_
      rw [classAt?_eq, hobject, Option.bind_some] at hclass
      obtain ⟨cls, tag, held⟩ := object
      cases held with
      | classObject =>
          cases hclass
          simp [HeapObject.nature, HeapObject.class?, hf, Body.elements]
      | _ => cases hclass

theorem changeThread (vm : Vm) (id : HeapId) (f : ThreadBody → ThreadBody) :
    vm.Endures (vm.after (changeThread id f)) := by
  rw [after_changeThread]
  cases hthread : vm.threadAt? id with
  | none => exact .refl vm
  | some body => exact setThread hthread (f body)

theorem addField (vm : Vm) (decl : FieldDecl) : vm.Endures (vm.after (Vm.addField decl)) := by
  let near : Vm :=
    { vm with fields := vm.fields.insert vm.nextField decl, nextField := vm.nextField + 1 }
  have hclass := changeClass (f := fun body =>
    { body with fields := body.fields ++ [vm.nextField] }) (fun _ => ⟨rfl, rfl⟩) near decl.cls
  rw [← Closed.after_bind_pure _ vm.nextField] at hclass
  exact (of_heap_eq rfl rfl : vm.Endures near).trans hclass

theorem addMethod (vm : Vm) (cls : HeapId) (spec : MethodSpec) :
    vm.Endures (vm.after (Vm.addMethod cls spec)) := by
  let near : Vm :=
    { vm with
      methods := vm.methods.insert vm.nextMethod ⟨cls, spec⟩, nextMethod := vm.nextMethod + 8 }
  have hclass := changeClass (f := fun body =>
    { body with methods := body.methods ++ [vm.nextMethod] }) (fun _ => ⟨rfl, rfl⟩) near cls
  rw [← Closed.after_bind_pure _ vm.nextMethod] at hclass
  exact (of_heap_eq rfl rfl : vm.Endures near).trans hclass

theorem setField (vm : Vm) (object : HeapId) (field : FieldId) (value : Stored) :
    vm.Endures (vm.after (Vm.setField object field value)) := by
  simp only [after, Vm.setField, perform_bind, perform_look]
  cases hobject : vm.heap[object]? with
  | none => exact .refl vm
  | some target =>
      obtain ⟨cls, tag, body⟩ := target
      cases body with
      | fields values =>
          refine setBody fun found hfound => ?_
          cases hobject.symm.trans hfound
          rfl
      | _ => exact .refl vm

theorem newArray (vm : Vm) (signature : String) (elements : List Stored) :
    vm.Endures (vm.after (Vm.newArray signature elements)) := by
  simp only [after, Vm.newArray, perform_bind, perform_look]
  cases vm.arrayClass? signature with
  | some id => exact .allocate vm id _
  | none => exact .trans (.allocate vm classClass _) (.allocate _ _ _)

end Endures

theorem Setup.endures (vm : Vm) (step : Setup) : vm.Endures (step.apply vm) := by
  cases step with
  | defineClass | defineInterface | defineSubclass | newObject | newString | spawnThread =>
      exact .allocate vm _ _
  | addInterface | setClassStatus | setClassModifiers | setSourceFile | setGenericSignature =>
      refine .changeClass ?_ vm _
      exact fun _ => ⟨rfl, rfl⟩
  | addStaticField | addInstanceField => exact .addField vm _
  | addMethod cls spec => exact .addMethod vm cls spec
  | setField object field value => exact .setField vm object field value
  | newArray signature elements => exact .newArray vm signature elements
  | failSuspend | setThreadState | terminateThread | pushFrame | popFrame | setTopLocation
  | setLocal => exact .changeThread vm _ _
  | setAttachFails | setProperty | takeRef => exact .of_heap_eq rfl rfl
  | poisonField field =>
      show vm.Endures (vm.after (Vm.poisonField field))
      simp only [after, Vm.poisonField, perform_change]
      split
      · exact .of_heap_eq rfl rfl
      · exact .refl vm

end Vm

/-! ### Operations -/

section Endures

variable {may : Control → Prop} {a b : Agent}

theorem Inspection.endures (h : Inspection may a b) : a.vm.Endures b.vm := by
  cases h with
  | glance h =>
      obtain ⟨hheap, hcapabilities, -⟩ := h.leaves
      exact .of_heap_eq hheap hcapabilities
  | attach _ caller => exact .attach a.vm caller
  | halt _ h =>
      cases h with
      | own => exact .of_heap_eq rfl rfl
      | thread hbody => exact .setThread hbody _
  | resume _ h =>
      cases h with
      | thread hbody => exact .setThread hbody _
  | recount => exact .refl a.vm
  | enrol => exact .trans (.setTagAt a.vm _ _) (.of_heap_eq rfl rfl)

theorem Move.endures (h : Move may a b) : a.vm.Endures b.vm := by
  cases h with
  | inspection h => exact h.endures
  | told h => cases h <;> exact .of_heap_eq rfl rfl
  | freeRef h =>
      obtain ⟨refs, heq⟩ := a.vm.deleteRef_eq .globalRef h
      rw [Agent.setVm, Vm.deleteGlobalRef, heq]
      exact .of_heap_eq rfl rfl
  | holdRef => exact .of_heap_eq rfl rfl
  | tracker | requests => exact .refl a.vm

theorem Vm.Endures.spanned : Vm.Spanned Vm.Endures where
  refl := .refl
  trans := .trans
  move := Move.endures
  enter := fun vm c => by cases c <;> exact .of_heap_eq rfl rfl
  leave := fun vm c carried => by
    obtain ⟨inCallback, refs, hleave⟩ := Vm.leaveCallback_leaves vm c carried
    rw [hleave]
    exact .of_heap_eq rfl rfl

/-- No operation changes the nature of objects. -/
theorem endures_apply (op : Op) (a : Agent) : a.vm.Endures (a.apply op).vm := by
  cases hop : op.isWorldly with
  | false => exact Vm.Endures.spanned.apply hop a
  | true =>
      cases op with
      | setup step => exact step.endures a.vm
      | _ => cases hop

end Endures

/-! ### Objects that are recognised -/

/-- The object carries an identifier in use as its tag. -/
structure Agent.Recognises (a : Agent) (object : HeapId) (id : ObjectId) : Prop where
  tag : a.vm.tagAt? object = some ↑id
  pos : 0 < id
  knows : a.Knows id

section Recognises

variable {may : Control → Prop} {α : Type} {a b c : Agent} {object : HeapId} {id : ObjectId}

theorem knows_iff : a.Knows id ↔ (a.tracker.global? id).isSome := by
  rw [Agent.Knows, Tracker.global?, Option.isSome_map]

theorem recognises_iff : a.Recognises object id ↔ ∃ entry, a.entryFor? object = some (id, entry) := by
  constructor
  · rintro ⟨htag, hpos, hknows⟩
    obtain ⟨entry, hentry⟩ := Option.isSome_iff_exists.mp hknows
    exact ⟨entry, by simp [Agent.entryFor?, htag, hpos, hentry]⟩
  · rintro ⟨entry, hfound⟩
    obtain ⟨hpos, htag, hentry⟩ := entryFor?_eq_some hfound
    exact ⟨htag, hpos, Option.isSome_of_eq_some hentry⟩

/-- A recognised object is told by its tag. -/
theorem Agent.Recognises.idFor (h : a.Recognises object id) : a.idFor object = id := by
  obtain ⟨entry, hentry⟩ := recognises_iff.mp h
  rw [Agent.idFor, hentry]
  rfl

theorem Agent.Recognises.setVm (h : a.Recognises object id) {vm : Vm} (hkeeps : a.vm.Keeps vm) :
    (a.setVm vm).Recognises object id :=
  ⟨hkeeps.tagged h.tag, h.pos, h.knows⟩

/-- An object whose identifier has been handed out is recognised by it. -/
theorem recognises_handingOut (hids : IdsBounded a) (hlive : object < a.vm.heap.size) :
    (a.handingOut object).Recognises object (a.idFor object) := by
  rw [Agent.handingOut, Agent.idFor]
  cases hentry : a.entryFor? object with
  | some known =>
      obtain ⟨id, entry⟩ := known
      obtain ⟨hpos, htag, -⟩ := entryFor?_eq_some hentry
      exact ⟨htag, hpos, by simp [Agent.Knows, Tracker.setReferences]⟩
  | none =>
      have htags : (a.enrol object).vm.tagAt? object =
          if object = object then (a.vm.tagAt? object).map fun _ => ↑a.tracker.nextId
          else a.vm.tagAt? object := Vm.tagAt?_setTagAt a.vm object a.tracker.nextId object
      refine ⟨?_, hids.pos, by simp [Agent.Knows, Agent.enrol, Tracker.add]⟩
      rw [htags, if_pos rfl, Vm.tagAt?, Array.getElem?_eq_getElem hlive]
      rfl

/-! ### Recognised for as long as the identifier is in use -/

/-- Another object becomes known: one that is recognised is passed over. -/
theorem Agent.Recognises.tag_enrol (h : a.Recognises object id) {other : HeapId} {tag : Int}
    (htag : a.vm.tagAt? other = some tag)
    (hnew : 0 < tag → a.tracker.entries.get? tag.toNat = none) :
    (a.enrol other).vm.tagAt? object = some ↑id := by
  have htags : (a.enrol other).vm.tagAt? object =
      if other = object then (a.vm.tagAt? object).map fun _ => ↑a.tracker.nextId
      else a.vm.tagAt? object := Vm.tagAt?_setTagAt a.vm other a.tracker.nextId object
  rw [htags, if_neg]
  · exact h.tag
  · rintro rfl
    cases htag.symm.trans h.tag
    have hnone := hnew (Int.natCast_pos.mpr h.pos)
    have hknows := h.knows
    rw [Agent.Knows, ← Int.toNat_natCast id, hnone] at hknows
    cases hknows

theorem Agent.Recognises.quiet (h : a.Recognises object id) (hquiet : Quiet a b)
    (huse : b.Knows id) : b.Recognises object id :=
  ⟨hquiet.tagged h.tag, h.pos, huse⟩

theorem Agent.Designates.quiet (h : a.Designates id object) (hquiet : Quiet a b)
    (huse : b.Knows id) : b.Designates id object := by
  obtain ⟨global, hglobal⟩ := Option.isSome_iff_exists.mp (knows_iff.mp huse)
  obtain ⟨before, hbefore, hheld⟩ := h
  cases (hquiet.global? hglobal).symm.trans hbefore
  exact ⟨_, hglobal, hquiet.globals hglobal hheld⟩

theorem Agent.Designates.enrol (h : a.Designates id object) (ho : InOrder a) (other : HeapId) :
    (a.enrol other).Designates id object := by
  obtain ⟨global, hglobal, hheld⟩ := h
  refine ⟨global, ?_, holdsGlobal_enrol ho.refs hheld other⟩
  have hsame := held?_enrol other a (.identifier id)
  rw [if_neg] at hsame
  · exact hsame.trans hglobal
  · intro hnext
    cases hnext
    rw [Tracker.global?, ho.ids.get?_nextId] at hglobal
    cases hglobal

theorem HoldsSoundly.unfolds (hs : HoldsSoundly a) (ho : Orderly a) (h : Unfolds a b) :
    HoldsSoundly b :=
  (unfolds_invariant (P := HoldsSoundly) (fun _ _ ho hchange hs => hs.change ho hchange)
    (fun _ _ ho hlast hs => hs.engagement ho hlast) ho hs h).2

/-- What is so of an identifier stays so for as long as it is in use, if quiet changes and objects
that become known make no difference to it. -/
theorem kept_of_unfolds {P : Agent → Prop} (ho : InOrder a) (hs : HoldsSoundly a)
    (hquiet : ∀ {b c : Agent}, Quiet b c → c.Knows id → P b → P c)
    (henrol : ∀ {b : Agent} {other tag}, InOrder b → b.vm.tagAt? other = some tag →
      (0 < tag → b.tracker.entries.get? tag.toNat = none) → P b → P (b.enrol other))
    (hknows : a.Knows id) (ha : P a) (hunfolds : Unfolds a b) (huse : b.Knows id) : P b := by
  obtain ⟨entry, hentry⟩ := Option.isSome_iff_exists.mp hknows
  have hlt : id < a.tracker.nextId := (ho.ids.bounded hentry).2
  induction hunfolds with
  | refl => exact ha
  | tail hbefore hstep ih =>
      -- what is in use in the end has been in use all the time
      have hold := Nat.lt_of_lt_of_le hlt (Onward.unfolds hbefore).nextId_le
      rcases hstep with hchange | hlast
      · have hmid := ih ((Onward.change hchange).knows id hold huse)
        rcases hchange.quiet_or_enrol (hs.unfolds ho.toOrderly hbefore) with
          hsame | ⟨other, tag, htag, hnew, rfl⟩
        · exact hquiet hsame huse hmid
        · exact henrol (ho.unfolds hbefore) htag hnew hmid
      · exact hquiet hlast.quiet huse (ih ((Onward.engagement hlast).knows id hold huse))

theorem Agent.Recognises.enrol (h : a.Recognises object id) {other : HeapId} {tag : Int}
    (htag : a.vm.tagAt? other = some tag)
    (hnew : 0 < tag → a.tracker.entries.get? tag.toNat = none) :
    (a.enrol other).Recognises object id :=
  ⟨h.tag_enrol htag hnew, h.pos, Table.isSome_get?_insert h.knows⟩

theorem Agent.Recognises.unfolds (h : a.Recognises object id) (ho : InOrder a)
    (hs : HoldsSoundly a) (hunfolds : Unfolds a b) (huse : b.Knows id) : b.Recognises object id :=
  kept_of_unfolds (P := fun b : Agent => b.Recognises object id) ho hs
    (fun hquiet hlater hb => hb.quiet hquiet hlater) (fun _ htag hnew hb => hb.enrol htag hnew)
    h.knows h hunfolds huse

theorem Agent.Designates.knows (h : a.Designates id object) : a.Knows id := by
  obtain ⟨global, hglobal, -⟩ := h
  exact knows_iff.mpr (Option.isSome_of_eq_some hglobal)

theorem Agent.Designates.unfolds (h : a.Designates id object) (ho : InOrder a)
    (hs : HoldsSoundly a) (hunfolds : Unfolds a b) (huse : b.Knows id) : b.Designates id object :=
  kept_of_unfolds (P := fun b : Agent => b.Designates id object) ho hs
    (fun hquiet hlater hb => hb.quiet hquiet hlater) (fun hb _ _ h => h.enrol hb _) h.knows h
    hunfolds huse

end Recognises

/-! ### Operations that give nothing back -/

/-- The operation gives identifiers back. -/
def Op.givesBack : Op → Bool
  | .command _ (.disposeObjects _) | .release _ _ | .dispose _ _ _ => true
  | _ => false

section Knows

variable {may : Control → Prop} {α : Type} {a b c : Agent} {id : ObjectId}

theorem Agent.Knows.of_tracker_eq (h : a.Knows id) (htracker : b.tracker = a.tracker) :
    b.Knows id := by
  rwa [Agent.Knows, htracker]

theorem Agent.Knows.inspections (h : a.Knows id) (hlater : ReflTransGen (Inspection may) a b) :
    b.Knows id := by
  rw [knows_iff] at h ⊢
  induction hlater with
  | refl => exact h
  | tail _ hlast ih => exact hlast.inUse ih

theorem Agent.Knows.answer (h : a.Knows id) {x : Command α} (hx : Looks may x)
    (caller : NativeThread) : (Command.answer caller x a).2.Knows id := by
  have hattach : Looks Control.Any (Command.attach caller) := .attach trivial caller
  rw [answer_snd]
  exact h.inspections ((hattach.bind fun _ => hx.any).makes a)

theorem Agent.Knows.answer_of_keepsIds (h : a.Knows id) {x : Command α} (hx : KeepsIds x)
    (caller : NativeThread) : (Command.answer caller x a).2.Knows id :=
  h.of_tracker_eq (hx.answer caller a)

theorem Agent.Knows.send (h : a.Knows id) (fired : Fired) : (Delivery.send fired a).Knows id := by
  rw [Delivery.send]
  split
  · exact h
  · have hsuspended : (Delivery.suspendFor fired.suspend a).Knows id := by
      cases fired.suspend with
      | none => exact h
      | some target => exact h.answer (looks_applySuspension target) .delivery
    exact hsuspended.of_tracker_eq rfl

theorem Agent.Knows.answered (h : a.Knows id) {caller : NativeThread} {c : Callback Handle}
    {fired : Option Fired} (hanswered : Answered a caller c fired b) : b.Knows id := by
  have hcaptured : (a.captured caller c).2.Knows id :=
    h.inspections ((looks_captured _ caller c).makes a)
  cases hanswered with
  | skipped => exact h.of_tracker_eq rfl
  | failed hfailed => rwa [hfailed] at hcaptured
  | passed hok hpassed =>
      rw [hok] at hcaptured
      exact hcaptured.of_tracker_eq hpassed.tracker

theorem Agent.Knows.onCallback (h : a.Knows id) (ho : Orderly a) (caller : NativeThread)
    (c : Callback Handle) : (a.onCallback caller c).Knows id := by
  have hanswered := h.answered (DebugAgent.answered caller c ho)
  rw [Agent.onCallback_eq]
  split
  · exact hanswered.send _
  · exact hanswered

theorem Agent.Knows.deliver (h : a.Knows id) (ho : Orderly a) (caller : NativeThread)
    (c : Callback HeapId) : (Agent.deliver caller c a).2.Knows id := by
  rw [Agent.deliver]
  split
  · have hentered : Change a (a.setVm (a.vm.enterCallback c).2) :=
      .machine (Vm.conserves_of_touches (Vm.touch_enterCallback c a.vm) ho.refs).toKeeps
    have hnear : (a.setVm (a.vm.enterCallback c).2).Knows id := h.of_tracker_eq rfl
    exact (hnear.onCallback (ho.change hentered) caller _).of_tracker_eq rfl
  · exact h

/-- Identifiers stay in use where none are given back. -/
theorem Agent.Knows.apply (h : a.Knows id) (ho : Orderly a) {op : Op} (hop : op.givesBack = false) :
    (a.apply op).Knows id := by
  cases op with
  | setup => exact h.of_tracker_eq rfl
  | command caller command =>
      rw [Agent.apply]
      by_cases hcapabilities : command = .capabilities
      · subst hcapabilities
        exact h
      rw [Agent.serve_eq hcapabilities]
      cases hlooks : command.onlyLooks with
      | true => exact h.answer (looks_ofClient caller hlooks) caller
      | false =>
          have hkeeps : ∀ requests, command ≠ .disposeObjects requests := by
            rintro requests rfl
            cases hop
          have hnames : command.names = false := by
            cases command <;> first | rfl | cases hlooks
          exact h.answer_of_keepsIds (keepsIds_ofClient caller hkeeps hnames) caller
  | attach caller canDeliver =>
      rw [Agent.apply, Agent.attach]
      exact h.answer_of_keepsIds (keepsIds_opening canDeliver) caller
  | closeSession => exact h.of_tracker_eq rfl
  | drain =>
      rw [Agent.apply, Agent.drain]
      split
      · exact h
      · exact h.of_tracker_eq rfl
  | deliver caller c => exact h.deliver ho caller c
  | callback caller c => exact h.onCallback ho caller c
  | trackNew caller handle => exact h.answer (@Looks.trackNew Control.Any handle) caller
  | trackObject caller handle declared =>
      exact h.answer (@looks_trackObject Control.Any handle declared) caller
  | trackClass caller handle => exact h.answer (@looks_trackClass Control.Any handle) caller
  | release | dispose => cases hop

end Knows

/-! ### What is not forgotten -/

/-- What was so about objects is so, those that were recognised are, and identifiers designate what
they did. -/
structure Recalls (a b : Agent) : Prop where
  endures : a.vm.Endures b.vm
  recognises : ∀ {object id}, a.Recognises object id → b.Recognises object id
  designates : ∀ {object id}, a.Designates id object → b.Designates id object

namespace Recalls

variable {may : Control → Prop} {α : Type} {a b c : Agent}

theorem refl (a : Agent) : Recalls a a := ⟨.refl a.vm, id, id⟩

theorem trans (h : Recalls a b) (h' : Recalls b c) : Recalls a c where
  endures := h.endures.trans h'.endures
  recognises := fun hknown => h'.recognises (h.recognises hknown)
  designates := fun hnamed => h'.designates (h.designates hnamed)

theorem machine {vm : Vm} (hendures : a.vm.Endures vm) (hkeeps : a.vm.Keeps vm) :
    Recalls a (a.setVm vm) where
  endures := hendures
  recognises := fun hknown => hknown.setVm hkeeps
  designates := fun hnamed => hnamed.setVm hkeeps

theorem inspection (ho : InOrder a) (h : Inspection may a b) : Recalls a b := by
  have hendures := h.endures
  cases h with
  | glance h => exact .machine hendures (h.touch.conserves ho.refs).toKeeps
  | attach _ caller => exact .machine hendures (Vm.frame_attach caller).keeps
  | halt _ h => exact .machine hendures (h.touch.conserves ho.refs).toKeeps
  | resume _ h => exact .machine hendures (h.touch.conserves ho.refs).toKeeps
  | @recount id entry hentry =>
      refine ⟨hendures, fun hknown => ?_, fun ⟨global, hglobal, hheld⟩ => ⟨global, ?_, hheld⟩⟩
      · exact ⟨hknown.tag, hknown.pos, Table.isSome_get?_insert hknown.knows⟩
      · exact (held?_setReferences hentry _ (.identifier _)).trans hglobal
  | enrol htag hnew =>
      exact ⟨hendures, fun hknown => hknown.enrol htag hnew, fun hnamed => hnamed.enrol ho _⟩

theorem inspections (ho : InOrder a) (h : ReflTransGen (Inspection may) a b) : Recalls a b := by
  induction h with
  | refl => exact .refl a
  | tail hbefore hlast ih =>
      have hunfolds := (evolves_of_inspections ho.toOrderly hbefore).unfolds
      exact ih.trans (.inspection (ho.unfolds hunfolds) hlast)

/-- Taking references and giving them back makes nobody forget. -/
theorem glances (ho : InOrder a) {vm : Vm} (h : ReflTransGen Vm.Glance a.vm vm) :
    Recalls a (a.setVm vm) := by
  have hinspections : ReflTransGen (Inspection Control.Any) a (a.setVm vm) := inspects_of_glances h
  exact .inspections ho hinspections

/-- Nor does looking at the machine. -/
theorem looks (ho : InOrder a) {x : Command α} (hx : Looks Control.Any x) :
    Recalls a (x.perform a).2 :=
  .inspections ho (hx.makes a)

theorem attach (a : Agent) (caller : NativeThread) : Recalls a (a.setVm (a.vm.attach caller).2) :=
  .machine (.attach a.vm caller) (Vm.frame_attach caller).keeps

/-- An identifier designates the object that it did. -/
theorem target? (h : Recalls a b) (ha : HoldsSoundly a) (hb : HoldsSoundly b) {id : ObjectId}
    {object : HeapId} (hlive : a.tracker.target? a.vm id = some object) :
    b.tracker.target? b.vm id = some object :=
  hb.target?_eq_some.mpr (h.designates (ha.target?_eq_some.mp hlive))

/-- Nobody is forgotten whose identifier stays in use. -/
theorem unfolds (ho : InOrder a) (hs : HoldsSoundly a) (hunfolds : Unfolds a b)
    (hendures : a.vm.Endures b.vm) (hknows : ∀ {id}, a.Knows id → b.Knows id) : Recalls a b where
  endures := hendures
  recognises := fun hknown => hknown.unfolds ho hs hunfolds (hknows hknown.knows)
  designates := fun hnamed => hnamed.unfolds ho hs hunfolds (hknows hnamed.knows)

theorem apply (ho : InOrder a) (hs : HoldsSoundly a) {op : Op} (hop : op.givesBack = false) :
    Recalls a (a.apply op) :=
  .unfolds ho hs (leads_apply op ho.toOrderly).unfolds (endures_apply op a)
    fun hknown => hknown.apply ho.toOrderly hop

end Recalls

/-! ### Later states -/

/-- A state that comes later by operations of some kinds, which name objects that are there. -/
inductive Agent.Later (may : Op → Bool) (a : Agent) : Agent → Prop where
  | now : Later may a a
  | apply {b : Agent} (h : Later may a b) {op : Op} (hmay : may op) (hnames : b.vm.Has op.objects) :
      Later may a (b.apply op)

namespace Agent.Later

variable {may : Op → Bool} {a b : Agent}

theorem reachable (h : a.Later may b) (ha : a.Reachable) : b.Reachable := by
  induction h with
  | now => exact ha
  | apply _ _ hnames ih => exact ih.apply _ hnames

theorem unfolds (h : a.Later may b) (ho : Orderly a) : Unfolds a b := by
  induction h with
  | now => exact .refl
  | @apply b hbefore op _ _ ih =>
      have hmid : Orderly b := ho.unfolds ih
      exact ih.trans (leads_apply op hmid).unfolds

theorem endures (h : a.Later may b) : a.vm.Endures b.vm := by
  induction h with
  | now => exact .refl a.vm
  | @apply b _ op _ _ ih => exact ih.trans (endures_apply op b)

theorem trans {c : Agent} (h : a.Later may b) (h' : b.Later may c) : a.Later may c := by
  induction h' with
  | now => exact h
  | apply _ hmay hnames ih => exact ih.apply hmay hnames

theorem recalls (h : a.Later may b) (ha : a.Reachable)
    (hmay : ∀ op, may op → op.givesBack = false) : Recalls a b := by
  induction h with
  | now => exact .refl a
  | apply hbefore hop _ ih =>
      have hmid := hbefore.reachable ha
      exact ih.trans (.apply hmid.inOrder hmid.consistent.holds (hmay _ hop))

theorem keepsWorld (h : a.Later may b) (hmay : ∀ op, may op → op.isWorldly = false) :
    a.vm.KeepsWorld b.vm := by
  induction h with
  | now => exact .refl a.vm
  | apply _ hop _ ih => exact ih.trans (keepsWorld_apply (hmay _ hop) _)

end Agent.Later

end DebugAgent
