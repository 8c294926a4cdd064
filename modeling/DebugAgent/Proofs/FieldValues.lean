import DebugAgent.Proofs.Hierarchy
import DebugAgent.Proofs.Restart
import DebugAgent.Proofs.Told

/-!
# Values of fields

The field of an object is looked for in the class of the object and then in one class after the
other above it.  The first class that declares it is the only one, since a field is declared once;
the way up ends, so a field that none of them declares is noticed and nothing is read.  A static
field is read from the class that declares it, in the same way as a client would that names this
class itself.
-/

namespace DebugAgent

open DebugAgent.Action Command Tracking Reading
open Relation (ReflTransGen)

/-! ### Declarations -/

namespace Vm

variable {vm : Vm} {cls : Handle} {owner : HeapId} {field : FieldId} {decl : FieldDecl}

/-- The declaration of a field, if this is the class that declares it. -/
def declaration? (vm : Vm) (owner : HeapId) (field : FieldId) : Option FieldDecl :=
  if (vm.classAt? owner).isSome then
    (vm.fields.get? field).filter fun decl => decl.cls = owner
  else none

theorem declaration?_eq_some : vm.declaration? owner field = some decl ↔
    (vm.classAt? owner).isSome ∧ vm.fields.get? field = some decl ∧ decl.cls = owner := by
  rw [declaration?]
  split <;> simp [*, Option.filter_eq_some_iff]

/-- A class is asked for the name of a field. -/
theorem fieldName_eq (htarget : vm.target? cls = some owner) (field : FieldId) :
    (vm.fieldName cls field).toOption =
      (vm.declaration? owner field).map fun decl => (decl.name, decl.signature) := by
  rw [fieldName, classOf, htarget, Option.bind_some, fieldOf, htarget, declaration?]
  cases vm.classAt? owner with
  | none => rfl
  | some body =>
      cases vm.fields.get? field with
      | none => rfl
      | some decl =>
          by_cases hown : decl.cls = owner
          · simp [hown, bind, Except.bind, Except.toOption, pure, Except.pure, Option.filter]
          · simp [hown, bind, Except.bind, Except.toOption, Option.filter]

theorem fieldName_of_declared (htarget : vm.target? cls = some owner)
    (hdecl : vm.declaration? owner field = some decl) :
    vm.fieldName cls field = .ok (decl.name, decl.signature) := by
  have hname := fieldName_eq htarget field
  rw [hdecl, Option.map_some] at hname
  cases hfound : vm.fieldName cls field with
  | error cause => simp [hfound, Except.toOption] at hname
  | ok found =>
      rw [hfound] at hname
      exact congrArg Except.ok (Option.some.inj hname)

theorem fieldName_of_undeclared (htarget : vm.target? cls = some owner)
    (hnone : vm.declaration? owner field = none) : ∃ cause, vm.fieldName cls field = .error cause := by
  have hname := fieldName_eq htarget field
  rw [hnone, Option.map_none] at hname
  cases hfound : vm.fieldName cls field with
  | error cause => exact ⟨cause, rfl⟩
  | ok found => simp [hfound, Except.toOption] at hname

theorem fieldModifiers_of_declared (htarget : vm.target? cls = some owner)
    (hdecl : vm.declaration? owner field = some decl) :
    vm.fieldModifiers cls field = .ok decl.modifiers := by
  obtain ⟨-, hfield, hown⟩ := declaration?_eq_some.mp hdecl
  simp [fieldModifiers, fieldOf, htarget, hfield, hown, Except.map]

end Vm

/-! ### References to classes -/

theorem Vm.newLocals_eq (ids : List HeapId) (vm : Vm) :
    ∃ refs lastRef, (vm.newLocals ids).2 = { vm with refs, lastRef } := by
  induction ids generalizing vm with
  | nil => exact ⟨vm.refs, vm.lastRef, rfl⟩
  | cons id ids ih =>
      obtain ⟨refs, lastRef, heq⟩ := ih (vm.newLocal id).2
      exact ⟨refs, lastRef, heq⟩

theorem Vm.keeps_newLocals (ids : List HeapId) {vm : Vm} (hb : vm.RefsBounded) :
    vm.Keeps (vm.newLocals ids).2 := by
  induction ids generalizing vm with
  | nil => exact .refl vm
  | cons id ids ih =>
      exact (keeps_newRef hb .localRef id).trans (ih ((ages_newRef vm .localRef id).bounded hb))

/-- Everything that is there refers to things that are there, and classes are older than those
below them. -/
structure Agent.Consistent (a : Agent) : Prop where
  inOrder : InOrder a
  holds : HoldsSoundly a
  closed : a.vm.Closed
  layered : a.vm.Layered

namespace Agent.Consistent

variable {a : Agent}

theorem refs (h : a.Consistent) : a.vm.RefsBounded := h.inOrder.refs

/-- The agent goes on with a machine that has been changed. -/
theorem setVm (h : a.Consistent) {vm : Vm} (hkeeps : a.vm.Keeps vm) (hclosed : vm.Closed)
    (hclasses : vm.classAt? = a.vm.classAt?) : (a.setVm vm).Consistent where
  inOrder := h.inOrder.setVm (hkeeps.toAges.bounded h.refs)
  holds := h.holds.change h.inOrder.toOrderly (.machine hkeeps)
  closed := hclosed
  layered := h.layered.of_classes hclasses

theorem newLocals (h : a.Consistent) {ids : List HeapId} (hids : a.vm.Has ids) :
    (a.setVm (a.vm.newLocals ids).2).Consistent := by
  refine h.setVm (Vm.keeps_newLocals ids h.refs) (h.closed.newLocals hids) ?_
  obtain ⟨refs, lastRef, heq⟩ := Vm.newLocals_eq ids a.vm
  rw [heq]
  rfl

/-- An object and its class can be referred to. -/
theorem has_class (h : a.Consistent) {object : HeapId} {held : HeapObject}
    (hheld : a.vm.heap[object]? = some held) : a.vm.Has [object, held.cls, held.cls] := by
  have hcls : held.cls < a.vm.heap.size := (Vm.has_cons.mp (h.closed.heap hheld)).1
  have hobject : object < a.vm.heap.size := (Array.getElem?_eq_some_iff.mp hheld).1
  simp [hcls, hobject]

theorem opened (h : a.Consistent) {object : HeapId} (hlive : object < a.vm.heap.size) :
    (a.opened object).Consistent := by
  have hids : a.vm.Has [object] := Vm.has_cons.mpr ⟨hlive, Vm.has_nil⟩
  exact h.newLocals hids

end Agent.Consistent

/-- What is told of fields does not depend on the references that are around. -/
theorem toldField_newLocals (a : Agent) (ids : List HeapId) :
    (a.setVm (a.vm.newLocals ids).2).toldField = a.toldField := by
  obtain ⟨refs, lastRef, heq⟩ := Vm.newLocals_eq ids a.vm
  rw [heq]
  rfl

theorem identified_newLocals (a : Agent) (ids : List HeapId) :
    (a.setVm (a.vm.newLocals ids).2).identified = a.identified := by
  obtain ⟨refs, lastRef, heq⟩ := Vm.newLocals_eq ids a.vm
  rw [heq]
  rfl

theorem Vm.fields_newLocals (ids : List HeapId) (vm : Vm) :
    (vm.newLocals ids).2.fields = vm.fields := by
  obtain ⟨refs, lastRef, heq⟩ := Vm.newLocals_eq ids vm
  rw [heq]

theorem Vm.fieldReads_newLocals (ids : List HeapId) (vm : Vm) :
    (vm.newLocals ids).2.fieldReads = vm.fieldReads := by
  obtain ⟨refs, lastRef, heq⟩ := Vm.newLocals_eq ids vm
  rw [heq]

theorem Vm.inherits_newLocals (ids : List HeapId) (vm : Vm) :
    (vm.newLocals ids).2.Inherits = vm.Inherits := by
  obtain ⟨refs, lastRef, heq⟩ := Vm.newLocals_eq ids vm
  rw [heq]
  rfl

theorem Vm.declaration?_newLocals (ids : List HeapId) (vm : Vm) :
    (vm.newLocals ids).2.declaration? = vm.declaration? := by
  obtain ⟨refs, lastRef, heq⟩ := Vm.newLocals_eq ids vm
  rw [heq]
  rfl

theorem Vm.foundAt_newLocals (ids : List HeapId) (vm : Vm) :
    (vm.newLocals ids).2.foundAt = vm.foundAt := by
  obtain ⟨refs, lastRef, heq⟩ := Vm.newLocals_eq ids vm
  rw [heq]
  rfl

namespace Command.Object

variable {a : Agent} {object cls : Handle} {owner declaring : HeapId} {field : FieldId}
  {decl : FieldDecl} {depth : Nat}

/-! ### The way up -/

/-- Reads a field whose declaration is at hand, from the class or from the object. -/
def readDeclared (object cls : Handle) (field : FieldId) (decl : FieldDecl) : Command Value :=
  readField (if hasAny decl.modifiers Access.isStatic then .inClass cls else .inObject object) field
    decl.signature

theorem fieldReads_dropLocal (vm : Vm) (h : Handle) :
    (dropLocal vm h).fieldReads = vm.fieldReads := by
  rw [dropLocal]
  split
  · rfl
  · obtain ⟨refs, hdeleted⟩ := Vm.deleteRef_eq vm .localRef h
    rw [Vm.deleteLocalRef, hdeleted]

theorem fieldReads_dropLocals (hs : List Handle) (vm : Vm) :
    (hs.foldl dropLocal vm).fieldReads = vm.fieldReads := by
  induction hs generalizing vm with
  | nil => rfl
  | cons h hs ih => exact (ih (dropLocal vm h)).trans (fieldReads_dropLocal vm h)

/-- Above the topmost class there is nothing to be found. -/
theorem perform_valueFrom_null (object : Handle) (field : FieldId) (depth : Nat) (a : Agent) :
    (valueFrom object field depth .null).perform a = (.error (.refused .invalidFieldId), a) := by
  have hnull : Handle.null.isNull = true := rfl
  cases depth <;>
    simp [valueFrom, requireRef, perform_bind, dropLocal, hnull, Agent.setVm]

theorem perform_valueFrom_declared (htarget : a.vm.target? cls = some owner)
    (hdecl : a.vm.declaration? owner field = some decl) (object : Handle) (depth : Nat) :
    (valueFrom object field (depth + 1) cls).perform a =
      (withLocal cls (readDeclared object cls field decl)).perform a := by
  have hname := Vm.fieldName_of_declared htarget hdecl
  have hmodifiers := Vm.fieldModifiers_of_declared htarget hdecl
  have hnull := Vm.isNull_eq_false_of_target htarget
  simp [valueFrom, requireRef, hnull, perform_bind, tryAsk, hname, ask, hmodifiers, readDeclared]

/-- A class that does not declare the field leads on to the class above it. -/
theorem perform_valueFrom_undeclared (htarget : a.vm.target? cls = some owner)
    (hnone : a.vm.declaration? owner field = none) (object : Handle) (depth : Nat) :
    (valueFrom object field (depth + 1) cls).perform a =
      (withLocal cls (valueFrom object field depth (a.vm.superclassRef cls).1)).perform
        (a.setVm (a.vm.superclassRef cls).2) := by
  obtain ⟨cause, hname⟩ := Vm.fieldName_of_undeclared htarget hnone
  have hnull := Vm.isNull_eq_false_of_target htarget
  simp [valueFrom, requireRef, hnull, perform_bind, tryAsk, hname, touch]

/-- What is above a class is referred to anew. -/
theorem superclassRef_eq {vm : Vm} {sup : HeapId} (htarget : vm.target? cls = some owner)
    (hsuper : vm.superclassAt? owner = some sup) : vm.superclassRef cls = vm.newLocal sup := by
  rw [Vm.superclassRef, Vm.superclass?_eq htarget, hsuper]

theorem superclassRef_topmost {vm : Vm} (htarget : vm.target? cls = some owner)
    (htop : vm.superclassAt? owner = none) : vm.superclassRef cls = (.null, vm) := by
  rw [Vm.superclassRef, Vm.superclass?_eq htarget, htop]

/-- The bound on the way up makes no difference, since no class has more classes above it than have
been defined before it. -/
theorem perform_valueFrom_depth (hl : a.vm.Layered) (htarget : a.vm.target? cls = some owner)
    {depth' : Nat} (hdepth : owner < depth) (hdepth' : owner < depth') (object : Handle) :
    (valueFrom object field depth cls).perform a = (valueFrom object field depth' cls).perform a := by
  induction depth generalizing a cls owner depth' with
  | zero => cases hdepth
  | succ depth ih =>
      obtain ⟨depth', rfl⟩ := Nat.exists_eq_succ_of_ne_zero (Nat.ne_zero_of_lt hdepth')
      cases hdecl : a.vm.declaration? owner field with
      | some decl =>
          rw [perform_valueFrom_declared htarget hdecl, perform_valueFrom_declared htarget hdecl]
      | none =>
          rw [perform_valueFrom_undeclared htarget hdecl, perform_valueFrom_undeclared htarget hdecl]
          cases hsuper : a.vm.superclassAt? owner with
          | none =>
              rw [superclassRef_topmost htarget hsuper, perform_withLocal, perform_withLocal,
                perform_valueFrom_null, perform_valueFrom_null]
          | some sup =>
              have hlt : sup < owner := hl.superclassAt?_lt hsuper
              have hsame := ih (a := a.opened sup) ⟨hl.older⟩
                (Vm.target?_newRef a.vm .localRef sup)
                (Nat.lt_of_lt_of_le hlt (Nat.le_of_lt_succ hdepth))
                (Nat.lt_of_lt_of_le hlt (Nat.le_of_lt_succ hdepth'))
              rw [superclassRef_eq htarget hsuper, perform_withLocal, perform_withLocal]
              exact congrArg (fun r : _ × Agent => (r.1, r.2.setVm (dropLocal r.2.vm cls))) hsame

/-- A field that a class above declares is read there.  The classes on the way are referred to in
the meantime. -/
theorem perform_valueFrom_inherited (hc : a.Consistent) (htarget : a.vm.target? cls = some owner)
    (hinherits : a.vm.Inherits owner declaring)
    (hdecl : a.vm.declaration? declaring field = some decl) (hdepth : owner < depth)
    (object : Handle) :
    ∃ ids hs found,
      let near := a.setVm (Vm.newLocals ids a.vm).2
      a.vm.Has ids ∧ near.vm.target? found = some declaring ∧
        (valueFrom object field depth cls).perform a =
          (withLocals hs (readDeclared object found field decl)).perform near := by
  induction depth generalizing a cls owner with
  | zero => cases hdepth
  | succ depth ih =>
      rcases hinherits.cases_head with rfl | ⟨sup, hsuper, habove⟩
      · exact ⟨[], [cls], cls, Vm.has_nil, htarget,
          perform_valueFrom_declared htarget hdecl object depth⟩
      · have hlt : sup < owner := hc.layered.superclassAt?_lt hsuper
        have hlive : sup < a.vm.heap.size :=
          hc.closed.superclass? ((Vm.superclass?_eq htarget).trans hsuper)
        -- A field has one declaring class, and this one is older than the one at hand.
        have hnone : a.vm.declaration? owner field = none := by
          apply Option.eq_none_iff_forall_ne_some.mpr
          intro other hother
          obtain ⟨-, hfield, rfl⟩ := Vm.declaration?_eq_some.mp hother
          obtain ⟨-, hfield', hown⟩ := Vm.declaration?_eq_some.mp hdecl
          cases hfield.symm.trans hfield'
          have hle : decl.cls ≤ sup := Nat.le_trans (Nat.le_of_eq hown) (hc.layered.le_of_inherits habove)
          exact Nat.lt_irrefl _ (Nat.lt_of_lt_of_le hlt hle)
        obtain ⟨ids, hs, found, hids, hfound, hperform⟩ := ih (hc.opened hlive)
          (Vm.target?_newRef a.vm .localRef sup) habove hdecl
          (Nat.lt_of_lt_of_le hlt (Nat.le_of_lt_succ hdepth))
        refine ⟨sup :: ids, hs ++ [cls], found, Vm.has_cons.mpr ⟨hlive, hids⟩, hfound, ?_⟩
        rw [perform_valueFrom_undeclared htarget hnone, superclassRef_eq htarget hsuper,
          perform_withLocal, perform_withLocals, List.foldl_append]
        exact congrArg (fun r : _ × Agent => (r.1, r.2.setVm (dropLocal r.2.vm cls))) hperform

/-- A field that no class on the way up declares is noticed, and no field has been read. -/
theorem perform_valueFrom_unknown (htarget : a.vm.target? cls = some owner)
    (hnone : ∀ declaring, a.vm.Inherits owner declaring →
      a.vm.declaration? declaring field = none) (object : Handle) (depth : Nat) :
    ∃ b, (valueFrom object field depth cls).perform a = (.error (.refused .invalidFieldId), b) ∧
      b.vm.fieldReads = a.vm.fieldReads := by
  induction depth generalizing a cls owner with
  | zero =>
      refine ⟨a.setVm (dropLocal a.vm cls), ?_, fieldReads_dropLocal a.vm cls⟩
      simp [valueFrom]
  | succ depth ih =>
      rw [perform_valueFrom_undeclared htarget (hnone owner .refl), perform_withLocal]
      cases hsuper : a.vm.superclassAt? owner with
      | none =>
          rw [superclassRef_topmost htarget hsuper, perform_valueFrom_null]
          exact ⟨_, rfl, fieldReads_dropLocal a.vm cls⟩
      | some sup =>
          obtain ⟨b, hperform, hreads⟩ := ih (a := a.opened sup)
            (Vm.target?_newRef a.vm .localRef sup)
            fun declaring hinherits => hnone declaring (hinherits.head hsuper)
          rw [superclassRef_eq htarget hsuper]
          exact ⟨b.setVm (dropLocal b.vm cls),
            congrArg (fun r : _ × Agent => (r.1, r.2.setVm (dropLocal r.2.vm cls))) hperform,
            (fieldReads_dropLocal b.vm cls).trans hreads⟩

/-! ### What is told -/

section Declared

variable {target : HeapId}

/-- A static field that a class above declares is told as this class keeps it. -/
theorem perform_valueFrom_static (hc : a.Consistent) (htarget : a.vm.target? cls = some owner)
    (hinherits : a.vm.Inherits owner declaring)
    (hdecl : a.vm.declaration? declaring field = some decl)
    (hstatic : hasAny decl.modifiers Access.isStatic) (hdepth : owner < depth) (object : Handle) :
    ((valueFrom object field depth cls).perform a).1 =
      (a.toldField decl.signature decl.found).mapError .refused := by
  obtain ⟨ids, hs, found, hids, hfound, hperform⟩ :=
    perform_valueFrom_inherited hc htarget hinherits hdecl hdepth object
  obtain ⟨-, hfield, rfl⟩ := Vm.declaration?_eq_some.mp hdecl
  have hnear := hc.newLocals hids
  rw [hperform, perform_withLocals, readDeclared, if_pos hstatic,
    perform_readStatic hnear.closed hnear.refs hfound
      ((congrArg (Table.get? · field) (Vm.fields_newLocals ids a.vm)).trans hfield),
    toldField_newLocals]

/-- A field of an object that a class above declares is told as the object keeps it. -/
theorem perform_valueFrom_instance (hc : a.Consistent) (hobject : a.vm.target? object = some target)
    (htarget : a.vm.target? cls = some owner) (hinherits : a.vm.Inherits owner declaring)
    (hdecl : a.vm.declaration? declaring field = some decl)
    (hinstance : hasAny decl.modifiers Access.isStatic = false) (hdepth : owner < depth) :
    ((valueFrom object field depth cls).perform a).1 =
      (a.toldField decl.signature (a.vm.foundAt target field decl)).mapError .refused := by
  obtain ⟨ids, hs, found, hids, -, hperform⟩ :=
    perform_valueFrom_inherited hc htarget hinherits hdecl hdepth object
  obtain ⟨-, hfield, rfl⟩ := Vm.declaration?_eq_some.mp hdecl
  have hnear := hc.newLocals hids
  rw [hperform, perform_withLocals, readDeclared, hinstance, if_neg Bool.false_ne_true,
    perform_readInstance hnear.closed hnear.refs (Vm.target?_newLocals_of_some hc.refs hobject ids)
      ((congrArg (Table.get? · field) (Vm.fields_newLocals ids a.vm)).trans hfield),
    toldField_newLocals]
  exact congrArg (fun found => (a.toldField decl.signature (found target field decl)).mapError _)
    (Vm.foundAt_newLocals ids a.vm)

theorem designates_readInstance (hc : a.Consistent) (hobject : a.vm.target? object = some target)
    (hdecl : a.vm.fields.get? field = some decl) {tag : TypeTag} {kind : ValueKind}
    {referent : HeapId} {tagged : TaggedObjectId} (htag : declaredTag decl.signature = .ok tag)
    (hkind : tag.valueKind = .ok kind)
    (hreferent : a.vm.foundAt target field decl kind = .reference (some referent))
    (htold : a.identified referent = .ok tagged) :
    ((readField (.inObject object) field decl.signature).perform a).2.Designates tagged.objectId
      ((a.tracker.target? a.vm tagged.objectId).getD referent) := by
  have hframe : a.vm.Frame a.vm.afterRead := .of_heap_eq rfl rfl rfl rfl rfl rfl fun h => h
  have hread := hc.setVm hframe.keeps (hc.closed.of_eq rfl rfl rfl rfl rfl) rfl
  have hlive : referent < a.vm.heap.size := by
    have hfound := hc.closed.has_foundAt target field decl kind
    rw [hreferent] at hfound
    exact (Vm.has_cons.mp hfound).1
  rw [perform_readField rfl (perform_instanceField hc.closed hobject hdecl), htag]
  dsimp only
  rw [hkind]
  dsimp only
  rw [hreferent]
  exact designates_wrap hread.inOrder hread.holds hread.closed hlive tag htold

/-- The identifier of an object that is read from a field designates the object from then on, unless
it was in use for something else. -/
theorem designates_valueFrom (hc : a.Consistent) (hobject : a.vm.target? object = some target)
    (htarget : a.vm.target? cls = some owner) (hinherits : a.vm.Inherits owner declaring)
    (hdecl : a.vm.declaration? declaring field = some decl)
    (hinstance : hasAny decl.modifiers Access.isStatic = false) (hdepth : owner < depth)
    {tag : TypeTag} {kind : ValueKind} {referent : HeapId} {tagged : TaggedObjectId}
    (htag : declaredTag decl.signature = .ok tag) (hkind : tag.valueKind = .ok kind)
    (hreferent : a.vm.foundAt target field decl kind = .reference (some referent))
    (htold : a.identified referent = .ok tagged) :
    ((valueFrom object field depth cls).perform a).2.Designates tagged.objectId
      ((a.tracker.target? a.vm tagged.objectId).getD referent) := by
  obtain ⟨ids, hs, found, hids, -, hperform⟩ :=
    perform_valueFrom_inherited hc htarget hinherits hdecl hdepth object
  obtain ⟨-, hfield, rfl⟩ := Vm.declaration?_eq_some.mp hdecl
  have hnear := hc.newLocals hids
  let near := a.setVm (a.vm.newLocals ids).2
  have hfound : near.vm.foundAt target field decl kind = .reference (some referent) := by
    rw [← hreferent]
    exact congrArg (· target field decl kind) (Vm.foundAt_newLocals ids a.vm)
  have hread := designates_readInstance hnear (Vm.target?_newLocals_of_some hc.refs hobject ids)
    ((congrArg (Table.get? · field) (Vm.fields_newLocals ids a.vm)).trans hfield) htag hkind hfound
    ((congrArg (· referent) (identified_newLocals a ids)).trans htold)
  rw [hperform, perform_withLocals, readDeclared, hinstance, if_neg Bool.false_ne_true,
    ← hc.holds.target?_of_keeps (Vm.keeps_newLocals ids hc.refs)]
  exact hread.setVm (Vm.keeps_dropLocals hs _)

end Declared

/-! ### Values of one field -/

/-- The values of fields of an object, with a bound on the classes that are visited for each. -/
def valuesWithin (depth : Nat) (id : ObjectId) (fields : List FieldId) : Command (List Value) :=
  withObject id fun object =>
    withClassOf object fun cls =>
      fields.mapM fun field => do valueFrom object field depth (← touch (Vm.newLocalRef cls))

theorem perform_mapM_singleton {α β : Type} (f : α → Command β) (x : α) (a : Agent) :
    ([x].mapM f).perform a = ((fun r => [r]) <$> f x).perform a := by
  rw [List.mapM_cons, perform_bind, perform_map]
  rcases (f x).perform a with ⟨_ | r, b⟩ <;> rfl

/-- A command on an object and its class works with references to both. -/
theorem perform_withClassOf_live {α : Type} {id : ObjectId} {target : HeapId} {held : HeapObject}
    (hc : a.vm.Closed) (hlive : a.tracker.target? a.vm id = some target)
    (hheld : a.vm.heap[target]? = some held) (x : Handle → Handle → Command α) :
    (withObject id fun object => withClassOf object (x object)).perform a =
      let object := (a.vm.newLocal target).1
      let cls := ((a.opened target).vm.newLocal held.cls).1
      (withLocals [cls, object] (x object cls)).perform ((a.opened target).opened held.cls) := by
  have hsize : target < a.vm.heap.size := (Array.getElem?_eq_some_iff.mp hheld).1
  have hopened : (a.opened target).vm.Closed := hc.newRef .localRef hsize
  have htarget : (a.opened target).vm.target? (a.vm.newLocal target).1 = some target :=
    Vm.target?_newRef a.vm .localRef target
  have hnew : ((a.opened target).vm.newLocal held.cls).1.isNull = false :=
    Vm.isNull_newRef (a.opened target).vm .localRef held.cls
  rw [withObject, perform_withRef_live hlive, perform_withLocal, withClassOf, perform_bind,
    perform_objectClassRef_live hopened htarget hheld]
  simp [requireRef, hnew, perform_bind, Agent.setVm]

/-- A field of an object is looked for in as many classes as there are objects. -/
theorem perform_values_eq {id : ObjectId} {target : HeapId} {held : HeapObject} (hc : a.vm.Closed)
    (hlive : a.tracker.target? a.vm id = some target) (hheld : a.vm.heap[target]? = some held)
    (field : FieldId) :
    (values id [field]).perform a = (valuesWithin a.vm.heap.size id [field]).perform a := by
  rw [values, valuesWithin, perform_withClassOf_live hc hlive hheld,
    perform_withClassOf_live hc hlive hheld, perform_withLocals, perform_withLocals,
    perform_mapM_singleton, perform_mapM_singleton]
  rfl

/-- Looking for one field is the way up from the object's class, with a reference of its own to the
class. -/
theorem perform_valuesWithin_singleton {id : ObjectId} {target : HeapId} {held : HeapObject}
    (hc : a.vm.Closed) (hb : a.vm.RefsBounded) (hlive : a.tracker.target? a.vm id = some target)
    (hheld : a.vm.heap[target]? = some held) (field : FieldId) :
    ∃ object cls hs,
      let near := a.setVm (Vm.newLocals [target, held.cls, held.cls] a.vm).2
      near.vm.target? object = some target ∧ near.vm.target? cls = some held.cls ∧
        ∀ depth, (valuesWithin depth id [field]).perform a =
          (withLocals hs ((fun r => [r]) <$> valueFrom object field depth cls)).perform near := by
  let one := a.opened target
  let two := one.opened held.cls
  have hone : one.vm.RefsBounded := (Vm.ages_newRef a.vm .localRef target).bounded hb
  have htwo : two.vm.RefsBounded := (Vm.ages_newRef one.vm .localRef held.cls).bounded hone
  have hcls : two.vm.target? (one.vm.newLocal held.cls).1 = some held.cls :=
    Vm.target?_newRef one.vm .localRef held.cls
  have hobject : two.vm.target? (a.vm.newLocal target).1 = some target :=
    Vm.target?_newRef_of_some hone (Vm.target?_newRef a.vm .localRef target) .localRef held.cls
  have hagain : Vm.newLocalRef (one.vm.newLocal held.cls).1 two.vm = two.vm.newLocal held.cls := by
    rw [Vm.newLocalRef, hcls]
    rfl
  refine ⟨(a.vm.newLocal target).1, (two.vm.newLocal held.cls).1,
    [(one.vm.newLocal held.cls).1, (a.vm.newLocal target).1],
    Vm.target?_newRef_of_some htwo hobject .localRef held.cls,
    Vm.target?_newRef two.vm .localRef held.cls, fun depth => ?_⟩
  have hup : (touch (Vm.newLocalRef (one.vm.newLocal held.cls).1) >>=
      valueFrom (a.vm.newLocal target).1 field depth).perform two =
      (valueFrom (a.vm.newLocal target).1 field depth (two.vm.newLocal held.cls).1).perform
        (two.opened held.cls) := by
    rw [perform_bind, touch, perform_update, hagain]
    rfl
  rw [valuesWithin, perform_withClassOf_live hc hlive hheld]
  simp only [perform_withLocals, perform_mapM_singleton, perform_map]
  rw [hup]
  rfl

end Command.Object

section Fields

variable {a : Agent} {id : ObjectId} {target owner : HeapId} {held : HeapObject} {field : FieldId}
  {decl : FieldDecl} {tag : TypeTag} {stored : Stored} {depth : Nat}

/-! ### Asking the class -/

/-- The class that declares a static field tells it as it keeps it. -/
theorem Command.Class.perform_values_static (hc : a.Consistent)
    (hlive : a.tracker.target? a.vm id = some owner)
    (hdecl : a.vm.declaration? owner field = some decl)
    (hstatic : hasAny decl.modifiers Access.isStatic) :
    ((Class.values id [field]).perform a).1 =
      ((a.toldField decl.signature decl.found).map fun value => [value]).mapError .refused := by
  obtain ⟨-, hfield, rfl⟩ := Vm.declaration?_eq_some.mp hdecl
  have hopened := hc.opened (Vm.has_cons.mp (hc.closed.fields hfield)).1
  have htarget : (a.opened decl.cls).vm.target? (a.vm.newLocal decl.cls).1 = some decl.cls :=
    Vm.target?_newRef a.vm .localRef decl.cls
  have hdeclared : (a.opened decl.cls).vm.declaration? decl.cls field = some decl := hdecl
  have hname := Vm.fieldName_of_declared htarget hdeclared
  have hmodifiers := Vm.fieldModifiers_of_declared htarget hdeclared
  have hvalue : (Class.value (a.vm.newLocal decl.cls).1 field).perform (a.opened decl.cls) =
      (readField (.inClass (a.vm.newLocal decl.cls).1) field decl.signature).perform
        (a.opened decl.cls) := by
    simp [Class.value, perform_bind, ask, hname, hmodifiers, hstatic]
  have htold : (a.opened decl.cls).toldField = a.toldField := rfl
  rw [Class.values, withClass, perform_withRef_live hlive, perform_withLocal,
    Object.perform_mapM_singleton, perform_map, hvalue,
    perform_readStatic hopened.closed hopened.refs htarget hfield decl.signature, htold]
  cases a.toldField decl.signature decl.found <;> rfl

/-! ### Asking the object -/

namespace Command.Object

section Held

variable (hc : a.Consistent) (hlive : a.tracker.target? a.vm id = some target)
  (hheld : a.vm.heap[target]? = some held)
include hc hlive hheld

/-- A bound that no class is beyond makes no difference. -/
theorem perform_valuesWithin (hdepth : a.vm.heap.size ≤ depth) :
    (valuesWithin depth id [field]).perform a = (values id [field]).perform a := by
  obtain ⟨object, cls, hs, -, hcls, hwithin⟩ :=
    perform_valuesWithin_singleton hc.closed hc.refs hlive hheld field
  have hnear := hc.newLocals (hc.has_class hheld)
  have howner : held.cls < a.vm.heap.size := (Vm.has_cons.mp (hc.closed.heap hheld)).1
  rw [perform_values_eq hc.closed hlive hheld, hwithin, hwithin, perform_withLocals,
    perform_withLocals, perform_map, perform_map,
    perform_valueFrom_depth hnear.layered hcls (Nat.lt_of_lt_of_le howner hdepth) howner object]

/-- A field that none of the classes declares is noticed, and no field has been read. -/
theorem perform_values_unknown (hnone : ∀ declaring, a.vm.Inherits held.cls declaring →
      a.vm.declaration? declaring field = none) :
    ∃ b, (values id [field]).perform a = (.error (.refused .invalidFieldId), b) ∧
      b.vm.fieldReads = a.vm.fieldReads := by
  obtain ⟨object, cls, hs, -, hcls, hwithin⟩ :=
    perform_valuesWithin_singleton hc.closed hc.refs hlive hheld field
  rw [← Vm.inherits_newLocals [target, held.cls, held.cls],
    ← Vm.declaration?_newLocals [target, held.cls, held.cls]] at hnone
  obtain ⟨b, hperform, hreads⟩ := perform_valueFrom_unknown hcls hnone object a.vm.heap.size
  refine ⟨b.setVm (hs.foldl dropLocal b.vm), ?_, ?_⟩
  · rw [perform_values_eq hc.closed hlive hheld, hwithin, perform_withLocals, perform_map, hperform]
    rfl
  · exact (fieldReads_dropLocals hs b.vm).trans (hreads.trans (Vm.fieldReads_newLocals _ a.vm))

/-- A static field is told as its class keeps it. -/
theorem perform_values_static (hinherits : a.vm.Inherits held.cls owner)
    (hdecl : a.vm.declaration? owner field = some decl)
    (hstatic : hasAny decl.modifiers Access.isStatic) :
    ((values id [field]).perform a).1 =
      ((a.toldField decl.signature decl.found).map fun value => [value]).mapError .refused := by
  obtain ⟨object, cls, hs, -, hcls, hwithin⟩ :=
    perform_valuesWithin_singleton hc.closed hc.refs hlive hheld field
  rw [← Vm.inherits_newLocals [target, held.cls, held.cls]] at hinherits
  rw [← Vm.declaration?_newLocals [target, held.cls, held.cls]] at hdecl
  have hlt : held.cls < a.vm.heap.size := (Vm.has_cons.mp (hc.closed.heap hheld)).1
  have hvalue := perform_valueFrom_static (hc.newLocals (hc.has_class hheld)) hcls hinherits hdecl
    hstatic hlt object
  rw [perform_values_eq hc.closed hlive hheld, hwithin, perform_withLocals, perform_map, hvalue,
    toldField_newLocals]
  cases a.toldField decl.signature decl.found <;> rfl

/-- A field of the object is told as the object keeps it. -/
theorem perform_values_instance (hinherits : a.vm.Inherits held.cls owner)
    (hdecl : a.vm.declaration? owner field = some decl)
    (hinstance : hasAny decl.modifiers Access.isStatic = false) :
    ((values id [field]).perform a).1 =
      ((a.toldField decl.signature (a.vm.foundAt target field decl)).map
        fun value => [value]).mapError .refused := by
  obtain ⟨object, cls, hs, hobject, hcls, hwithin⟩ :=
    perform_valuesWithin_singleton hc.closed hc.refs hlive hheld field
  rw [← Vm.inherits_newLocals [target, held.cls, held.cls]] at hinherits
  rw [← Vm.declaration?_newLocals [target, held.cls, held.cls]] at hdecl
  have hlt : held.cls < a.vm.heap.size := (Vm.has_cons.mp (hc.closed.heap hheld)).1
  have hvalue := perform_valueFrom_instance (hc.newLocals (hc.has_class hheld)) hobject hcls
    hinherits hdecl hinstance hlt
  have hfound : (a.setVm (a.vm.newLocals [target, held.cls, held.cls]).2).vm.foundAt =
      a.vm.foundAt := Vm.foundAt_newLocals _ a.vm
  rw [perform_values_eq hc.closed hlive hheld, hwithin, perform_withLocals, perform_map, hvalue,
    toldField_newLocals, hfound]
  cases a.toldField decl.signature (a.vm.foundAt target field decl) <;> rfl

/-- The identifier of an object that is read from a field of the object designates it from then on,
unless it was in use for something else. -/
theorem designates_values (hinherits : a.vm.Inherits held.cls owner)
    (hdecl : a.vm.declaration? owner field = some decl)
    (hinstance : hasAny decl.modifiers Access.isStatic = false)
    {kind : ValueKind} {referent : HeapId} {tagged : TaggedObjectId}
    (htag : declaredTag decl.signature = .ok tag) (hkind : tag.valueKind = .ok kind)
    (hreferent : a.vm.foundAt target field decl kind = .reference (some referent))
    (htold : a.identified referent = .ok tagged) :
    ((values id [field]).perform a).2.Designates tagged.objectId
      ((a.tracker.target? a.vm tagged.objectId).getD referent) := by
  obtain ⟨object, cls, hs, hobject, hcls, hwithin⟩ :=
    perform_valuesWithin_singleton hc.closed hc.refs hlive hheld field
  let ids := [target, held.cls, held.cls]
  rw [← Vm.inherits_newLocals ids] at hinherits
  rw [← Vm.declaration?_newLocals ids] at hdecl
  rw [← Vm.foundAt_newLocals ids] at hreferent
  rw [← identified_newLocals a ids] at htold
  have hlt : held.cls < a.vm.heap.size := (Vm.has_cons.mp (hc.closed.heap hheld)).1
  have hvalue := designates_valueFrom (hc.newLocals (hc.has_class hheld)) hobject hcls
    hinherits hdecl hinstance hlt htag hkind hreferent htold
  rw [perform_values_eq hc.closed hlive hheld, hwithin, perform_withLocals, perform_map,
    ← hc.holds.target?_of_keeps (Vm.keeps_newLocals ids hc.refs)]
  exact hvalue.setVm (Vm.keeps_dropLocals hs _)

end Held

end Command.Object

/-! ### What the client gets -/

/-- What the client gets for what is stored.  An object is told by an identifier that designates it
from then on.  Where the machine has been an earlier agent's, the identifier may have been taken from
a tag that this agent has left on the object, and stays with the object it has been in use for. -/
def Agent.Conveys (before after : Agent) (tag : TypeTag) : Stored → Value → Prop
  | .primitive v, value => value = ⟨tag, v.data⟩
  | .reference none, value => value = .ofObject ⟨if tag = .array then .array else .object, 0⟩
  | .reference (some object), value => ∃ body id, before.vm.runtimeClass? object = some body ∧
      value = .ofObject ⟨.ofClass body.signature, id⟩ ∧
        after.tracker.target? after.vm id =
          some ((before.tracker.target? before.vm id).getD object) ∧
        ((∃ steps config ops, before = Agent.reached steps config ops) →
          after.tracker.target? after.vm id = some object)

/-- One agent on a machine of its own uses no identifier for two objects. -/
theorem Sound.target?_idFor (hs : Sound a) (object : HeapId) :
    (a.tracker.target? a.vm (a.idFor object)).getD object = object := by
  rw [Agent.idFor]
  cases hentry : a.entryFor? object with
  | some known =>
      obtain ⟨id, entry⟩ := known
      obtain ⟨-, htag, hfound⟩ := entryFor?_eq_some hentry
      have hglobal : a.tracker.global? id = some entry.global := by
        rw [Tracker.global?, hfound, Option.map_some]
      have hheld := hs.designates hglobal htag
      rw [Option.elim_some, hs.target?_eq_some.mpr ⟨_, hglobal, hheld⟩, Option.getD_some]
  | none =>
      have hnew : a.tracker.entries.get? a.tracker.nextId = none := by
        apply Option.eq_none_iff_forall_ne_some.mpr
        intro entry hentry
        exact Nat.lt_irrefl _ (hs.inUse hentry).2.1
      rw [Option.elim_none, Tracker.target?, Tracker.global?, hnew]
      rfl

/-- A value that fits is told, and what is told conveys it if the identifier of an object
designates the object. -/
theorem conveys_of_told {b : Agent} (hgrant : a.vm.grants Capabilities.canTagObjects)
    (hfits : a.vm.Fits tag stored)
    (hdesignates : ∀ {object : HeapId} {tagged : TaggedObjectId},
      stored = .reference (some object) → a.identified object = .ok tagged →
        b.Designates tagged.objectId ((a.tracker.target? a.vm tagged.objectId).getD object)) :
    ∃ value, a.told tag stored = .ok value ∧ a.Conveys b tag stored value := by
  rcases stored with v | _ | referent
  · exact ⟨_, told_primitive hfits, rfl⟩
  · exact ⟨_, rfl, rfl⟩
  · obtain ⟨body, hbody⟩ := Option.isSome_iff_exists.mp hfits.2
    have htold : a.identified referent = .ok ⟨.ofClass body.signature, a.idFor referent⟩ := by
      rw [Agent.identified, hbody]
      exact if_pos hgrant
    have hnamed := hdesignates rfl htold
    rw [Agent.told, htold]
    refine ⟨_, rfl, body, a.idFor referent, hbody, rfl, hnamed.target?, ?_⟩
    rintro ⟨steps, config, ops, rfl⟩
    rw [hnamed.target?]
    exact congrArg some ((sound_reached steps config ops).target?_idFor referent)

/-- A field of the type that its value has is told as the value. -/
theorem Command.Object.conveys_values (hc : a.Consistent)
    (hgrant : a.vm.grants Capabilities.canTagObjects)
    (hlive : a.tracker.target? a.vm id = some target) (hheld : a.vm.heap[target]? = some held)
    (hinherits : a.vm.Inherits held.cls owner) (hdecl : a.vm.declaration? owner field = some decl)
    (hinstance : hasAny decl.modifiers Access.isStatic = false) (hsound : decl.poisoned = false)
    (htag : declaredTag decl.signature = .ok tag)
    (hstored : (a.vm.storedAt? target field).getD (.zeroFor decl.signature) = stored)
    (hfits : a.vm.Fits tag stored) :
    ∃ value, ((values id [field]).perform a).1 = .ok [value] ∧
      a.Conveys ((values id [field]).perform a).2 tag stored value := by
  obtain ⟨kind, hkind⟩ := valueKind_of_fits hfits
  have hfound : a.vm.foundAt target field decl kind = stored :=
    (Vm.foundAt_eq hsound htag hkind).trans hstored
  have hfield : a.toldField decl.signature (a.vm.foundAt target field decl) = a.told tag stored := by
    rw [Agent.toldField, htag]
    dsimp only
    rw [hkind]
    dsimp only
    rw [hfound]
  obtain ⟨value, htold, hconveys⟩ := conveys_of_told hgrant hfits fun hreferent hidentified =>
    designates_values hc hlive hheld hinherits hdecl hinstance htag hkind (hfound.trans hreferent)
      hidentified
  rw [perform_values_instance hc hlive hheld hinherits hdecl hinstance, hfield, htold]
  exact ⟨value, rfl, hconveys⟩

/-! ### Reachable states -/

/-- Identifiers are in use only where objects can be tagged. -/
structure Agent.Entitled (a : Agent) : Prop where
  granted : ∀ {id entry}, a.tracker.entries.get? id = some entry →
    a.vm.grants Capabilities.canTagObjects

namespace Agent.Entitled

variable {b : Agent}

theorem of_quiet (h : a.Entitled) (hquiet : Quiet a b)
    (hcapabilities : b.vm.capabilities = a.vm.capabilities) : b.Entitled := by
  refine ⟨fun hentry => ?_⟩
  obtain ⟨before, hbefore, -⟩ := hquiet.entries hentry
  exact (Vm.grants_congr hcapabilities _).trans (h.granted hbefore)

theorem change (h : a.Entitled) (hs : HoldsSoundly a) (hchange : TidyChange a b) : b.Entitled := by
  rcases hchange.change.quiet_or_enrol hs with hquiet | ⟨object, tag, -, -, rfl⟩
  · exact h.of_quiet hquiet hchange.change.capabilities
  · rcases hchange.granted with hsame | hgrant
    · -- the next identifier has been taken into use
      exact absurd hsame (Nat.succ_ne_self _)
    · exact ⟨fun _ => hgrant⟩

theorem evolves (h : a.Entitled) (ho : Orderly a) (hs : HoldsSoundly a) (hevolves : Evolves a b) :
    HoldsSoundly b ∧ b.Entitled := by
  induction hevolves with
  | refl => exact ⟨hs, h⟩
  | tail hevolves hchange ih =>
      obtain ⟨hs, h⟩ := ih
      exact ⟨hs.change (ho.evolves hevolves) hchange.change, h.change hs hchange⟩

theorem leads (h : a.Entitled) (ho : Orderly a) (hs : HoldsSoundly a) (hleads : Leads a b) :
    HoldsSoundly b ∧ b.Entitled := by
  rcases hleads with hevolves | ⟨c, hevolves, hengagement, -⟩
  · exact h.evolves ho hs hevolves
  · obtain ⟨hs, h⟩ := h.evolves ho hs hevolves
    exact ⟨hs.engagement (ho.evolves hevolves) hengagement,
      h.of_quiet hengagement.quiet hengagement.capabilities⟩

end Agent.Entitled

/-- What is so after each operation that names objects that are there is so after a run of them. -/
theorem Agent.run_of_apply {P : Agent → Prop}
    (happly : ∀ {b : Agent}, P b → ∀ op : Op, b.vm.Has op.objects → P (b.apply op)) (ha : P a)
    {ops : List Op}
    (hnames : ∀ n < ops.length, (a.run (ops.take n)).vm.Has (ops[n]?.elim [] Op.objects)) :
    P (a.run ops) := by
  induction ops generalizing a with
  | nil => exact ha
  | cons op ops ih =>
      refine ih (happly ha op (hnames 0 (Nat.succ_pos _))) fun n hn => ?_
      simpa using hnames (n + 1) (Nat.succ_lt_succ hn)

namespace Agent.Reachable

theorem inOrder (h : a.Reachable) : InOrder a := by
  induction h with
  | start config => exact inOrder_start (Vm.bounded_built []) config
  | restart _ config ih => exact inOrder_start ih.refs config
  | apply _ op _ ih => exact ih.unfolds (leads_apply op ih.toOrderly).unfolds

theorem holdsSoundly_and_entitled (h : a.Reachable) : HoldsSoundly a ∧ a.Entitled := by
  have hnew : ∀ vm config, HoldsSoundly (Agent.start vm config) ∧
      (Agent.start vm config).Entitled := fun vm config =>
    ⟨{ valid := fun {x global} hx => by cases x <;> cases hx
       once := fun {x y global} hx _ => by cases x <;> cases hx },
      ⟨fun hentry => by cases hentry⟩⟩
  induction h with
  | start config => exact hnew _ config
  | restart _ config _ => exact hnew _ config
  | @apply b hb op _ ih =>
      obtain ⟨hs, hentitled⟩ := ih
      exact hentitled.leads hb.orderly hs (leads_apply op hb.orderly)

theorem consistent (h : a.Reachable) : a.Consistent where
  inOrder := h.inOrder
  holds := h.holdsSoundly_and_entitled.1
  closed := h.intact.closed
  layered := h.layered

/-- An identifier that names an object has been handed out where objects can be tagged. -/
theorem grants_of_target? (h : a.Reachable) (hlive : a.tracker.target? a.vm id = some target) :
    a.vm.grants Capabilities.canTagObjects := by
  obtain ⟨global, hglobal, -⟩ := Option.bind_eq_some_iff.mp hlive
  obtain ⟨entry, hentry, -⟩ := Option.map_eq_some_iff.mp hglobal
  exact h.holdsSoundly_and_entitled.2.granted hentry

/-- A native thread is attached when it issues a command, even if the agent does not carry it
out. -/
theorem apply_reserved (hattach : a.vm.attachFails = false) (caller : NativeThread)
    (command : ReservedCommand) :
    a.apply (.command caller (.reserved command)) = a.setVm (a.vm.attach caller).2 := by
  rw [Agent.apply, Agent.serve_eq (by simp), answer_of_attaching hattach]
  rfl

theorem attached (h : a.Reachable) (hattach : a.vm.attachFails = false) (caller : NativeThread) :
    (a.setVm (a.vm.attach caller).2).Reachable := by
  rw [← apply_reserved hattach caller .dispose]
  exact h.apply _ Vm.has_nil

/-- Operations that name objects that are there, one after the other. -/
theorem run (h : a.Reachable) {ops : List Op}
    (hnames : ∀ n < ops.length, (a.run (ops.take n)).vm.Has (ops[n]?.elim [] Op.objects)) :
    (a.run ops).Reachable :=
  Agent.run_of_apply (fun hb op hop => hb.apply op hop) h hnames

end Agent.Reachable

/-! ### A thread that issues the command -/

namespace Vm

variable {vm : Vm}

/-- A native thread that is attached gets an object of its own, unless it has been attached
before. -/
theorem attach_cases (vm : Vm) (caller : NativeThread) : (vm.attach caller).2 = vm ∨
    ∃ own attached, (vm.attach caller).2 = { vm with heap := vm.heap.push own, attached } := by
  rw [attach]
  split
  · exact .inl rfl
  · exact .inr ⟨_, _, rfl⟩

theorem fields_attach (vm : Vm) (caller : NativeThread) :
    (vm.attach caller).2.fields = vm.fields := by
  rcases vm.attach_cases caller with heq | ⟨own, attached, heq⟩ <;> rw [heq]

theorem fieldReads_attach (vm : Vm) (caller : NativeThread) :
    (vm.attach caller).2.fieldReads = vm.fieldReads := by
  rcases vm.attach_cases caller with heq | ⟨own, attached, heq⟩ <;> rw [heq]

theorem size_attach_le (vm : Vm) (caller : NativeThread) :
    (vm.attach caller).2.heap.size ≤ vm.heap.size + 1 := by
  rcases vm.attach_cases caller with heq | ⟨own, attached, heq⟩ <;> rw [heq]
  · exact Nat.le_succ _
  · exact Nat.le_of_eq (Array.size_push _)

theorem classes_attach (vm : Vm) (caller : NativeThread) :
    (vm.attach caller).2.classAt? = vm.classAt? :=
  funext fun id => classAt?_attach vm caller id

theorem inherits_attach (vm : Vm) (caller : NativeThread) :
    (vm.attach caller).2.Inherits = vm.Inherits := by
  simp only [Inherits, superclassAt?, classes_attach]

theorem declaration?_attach (vm : Vm) (caller : NativeThread) :
    (vm.attach caller).2.declaration? = vm.declaration? := by
  funext owner field
  rw [declaration?, declaration?, classes_attach, fields_attach]

theorem storedAt?_attach (hheld : vm.heap[target]? = some held) (caller : NativeThread)
    (field : FieldId) : (vm.attach caller).2.storedAt? target field = vm.storedAt? target field := by
  rw [storedAt?, storedAt?, heap_attach hheld, hheld]

/-- An object that is an instance of a class stays one. -/
theorem runtimeClass?_attach {body : ClassBody} (hbody : vm.runtimeClass? target = some body)
    (caller : NativeThread) : (vm.attach caller).2.runtimeClass? target = some body := by
  obtain ⟨held, hheld, hclass⟩ := Option.bind_eq_some_iff.mp hbody
  rw [runtimeClass?, heap_attach hheld, Option.bind_some, classes_attach, hclass]

theorem Fits.attach (hfits : vm.Fits tag stored) (caller : NativeThread) :
    (vm.attach caller).2.Fits tag stored := by
  rcases stored with _ | _ | object
  · exact hfits
  · exact hfits
  · obtain ⟨body, hbody⟩ := Option.isSome_iff_exists.mp hfits.2
    exact ⟨hfits.1, Option.isSome_of_eq_some (runtimeClass?_attach hbody caller)⟩

end Vm

theorem tracker_target?_attach (a : Agent) (caller : NativeThread) (id : ObjectId) :
    a.tracker.target? (a.vm.attach caller).2 id = a.tracker.target? a.vm id := by
  rw [Tracker.target?, Tracker.target?, funext (target?_attach a.vm caller)]

theorem reached_attached {steps : List Vm.Setup} {config : Config} {ops : List Op}
    (ha : a = Agent.reached steps config ops) (hattach : a.vm.attachFails = false)
    (caller : NativeThread) : a.setVm (a.vm.attach caller).2 =
      Agent.reached steps config (ops ++ [.command caller (.reserved .dispose)]) := by
  rw [← Agent.Reachable.apply_reserved hattach caller .dispose, ha, Agent.reached, Agent.reached,
    Agent.run, Agent.run, List.foldl_append]
  rfl

/-- What the client gets is judged alike before and after its thread has been attached. -/
theorem Agent.Conveys.of_attached {after : Agent} {value : Value}
    (hattach : a.vm.attachFails = false) (hfits : a.vm.Fits tag stored) {caller : NativeThread}
    (h : (a.setVm (a.vm.attach caller).2).Conveys after tag stored value) :
    a.Conveys after tag stored value := by
  rcases stored with _ | _ | object
  · exact h
  · exact h
  · obtain ⟨body, hbody⟩ := Option.isSome_iff_exists.mp hfits.2
    obtain ⟨found, id, hfound, hvalue, hdesignates, hown⟩ := h
    cases (Vm.runtimeClass?_attach hbody caller).symm.trans hfound
    refine ⟨body, id, hbody, hvalue, ?_, ?_⟩
    · rw [← tracker_target?_attach a caller]
      exact hdesignates
    · rintro ⟨steps, config, ops, ha⟩
      exact hown ⟨steps, config, _, reached_attached ha hattach caller⟩

/-- What a command comes to for the client, once its native thread is attached. -/
theorem Agent.serve_eq_map {α : Type} {x : Command α} {f : α → Reply} {command : ClientCommand}
    {caller : NativeThread} (hattach : a.vm.attachFails = false) (hnot : command ≠ .capabilities)
    (hcommand : ofClient caller command = f <$> x) : Agent.serve caller command a =
      let told := x.perform (a.setVm (a.vm.attach caller).2)
      ((told.1.map f).mapError Stop.told, told.2) := by
  rw [Agent.serve_eq hnot, answer_of_attaching hattach, hcommand, perform_map]

/-- What the client is told of a field.  The field of an object is looked for in the class of the
object and the classes above it, of which there is an end: the bound on the search makes no
difference.  A field that none of them declares is refused without a read.  A static field is told as
by the class that declares it.  A field of the object that can be read, with a value of its type, is
told as the object keeps it, or as the value that fields have at the start. -/
theorem object_field_as_declared {a : Agent} (h : a.Reachable) (hattach : a.vm.attachFails = false)
    {id : ObjectId} {object : HeapId} (hlive : a.tracker.target? a.vm id = some object)
    (caller : NativeThread) (field : FieldId) :
    let outcome := Agent.serve caller (.objectValues id [field]) a
    ∃ held, a.vm.heap[object]? = some held ∧
      (WellFounded fun sup cls => a.vm.superclassAt? cls = some sup) ∧
      (∀ depth, a.vm.heap.size < depth →
        answer caller (.values <$> Object.valuesWithin depth id [field]) a = outcome) ∧
      ((∀ owner, a.vm.Inherits held.cls owner → a.vm.declaration? owner field = none) →
        outcome.1 = .error .invalidFieldId ∧ outcome.2.vm.fieldReads = a.vm.fieldReads) ∧
      ∀ owner decl, a.vm.Inherits held.cls owner → a.vm.declaration? owner field = some decl →
        (hasAny decl.modifiers Access.isStatic →
          ∀ type, a.tracker.target? a.vm type = some owner →
            outcome.1 = (Agent.serve caller (.staticValues type [field]) a).1) ∧
        (¬ hasAny decl.modifiers Access.isStatic → ¬ decl.poisoned →
          ∀ tag, declaredTag decl.signature = .ok tag →
            let stored := (a.vm.storedAt? object field).getD (.zeroFor decl.signature)
            a.vm.Fits tag stored →
              ∃ value, outcome.1 = .ok (.values [value]) ∧
                a.Conveys outcome.2 tag stored value) := by
  let near := a.setVm (a.vm.attach caller).2
  have hnear : near.Reachable := h.attached hattach caller
  have hc := hnear.consistent
  have hlive' : near.tracker.target? near.vm id = some object :=
    (tracker_target?_attach a caller id).trans hlive
  obtain ⟨held, hheld⟩ : ∃ held, a.vm.heap[object]? = some held := by
    obtain ⟨global, -, htarget⟩ := Option.bind_eq_some_iff.mp hlive
    exact ⟨_, Array.getElem?_eq_getElem (h.intact.closed.target? htarget)⟩
  have hheld' : near.vm.heap[object]? = some held := Vm.heap_attach hheld caller
  have hinherits' : near.vm.Inherits = a.vm.Inherits := Vm.inherits_attach a.vm caller
  have hdecl' : near.vm.declaration? = a.vm.declaration? := Vm.declaration?_attach a.vm caller
  let told := (Object.values id [field]).perform near
  have hanswer : Agent.serve caller (.objectValues id [field]) a =
      ((told.1.map .values).mapError Stop.told, told.2) :=
    Agent.serve_eq_map hattach (by simp) rfl
  rw [hanswer]
  refine ⟨held, hheld, h.layered.wellFounded, fun depth hdepth => ?_, fun hnone => ?_,
    fun owner decl hinherits hdecl => ⟨fun hstatic type htype => ?_,
      fun hinstance hsound tag htag => ?_⟩⟩
  · have hsize : near.vm.heap.size ≤ depth := Nat.le_trans (Vm.size_attach_le a.vm caller) hdepth
    rw [answer_of_attaching hattach, perform_map,
      Object.perform_valuesWithin hc hlive' hheld' hsize]
  · rw [← hinherits', ← hdecl'] at hnone
    obtain ⟨b, hperform, hreads⟩ := Object.perform_values_unknown hc hlive' hheld' hnone
    have htold : told = (.error (.refused .invalidFieldId), b) := hperform
    rw [htold]
    exact ⟨rfl, hreads.trans (Vm.fieldReads_attach a.vm caller)⟩
  · rw [← hinherits'] at hinherits
    rw [← hdecl'] at hdecl
    have htype' : near.tracker.target? near.vm type = some owner :=
      (tracker_target?_attach a caller type).trans htype
    have hobject := Object.perform_values_static hc hlive' hheld' hinherits hdecl hstatic
    have hclass := Class.perform_values_static hc htype' hdecl hstatic
    have hserved : Agent.serve caller (.staticValues type [field]) a =
        let values := (Class.values type [field]).perform near
        ((values.1.map .values).mapError Stop.told, values.2) :=
      Agent.serve_eq_map hattach (by simp) rfl
    rw [hserved]
    dsimp only
    rw [hclass, ← hobject]
  · intro stored hfits
    have hstored : (near.vm.storedAt? object field).getD (.zeroFor decl.signature) = stored :=
      congrArg (Option.getD · _) (Vm.storedAt?_attach hheld caller field)
    rw [← hinherits'] at hinherits
    rw [← hdecl'] at hdecl
    obtain ⟨value, hvalue, hconveys⟩ := Object.conveys_values hc
      (hnear.grants_of_target? hlive') hlive' hheld' hinherits hdecl
      (Bool.eq_false_iff.mpr hinstance) (Bool.eq_false_iff.mpr hsound) htag hstored
      (hfits.attach caller)
    have htold : told.1 = .ok [value] := hvalue
    rw [htold]
    exact ⟨value, rfl, hconveys.of_attached hattach hfits⟩

/-- An object of a class below the one that declares two fields, known as object 1.  It has not been
given a value of its own; the class, known as object 2, has one for all. -/
def inheritor : Agent :=
  (Agent.start Vm.fresh {}).run
    [.setup (.defineClass "LBase;"), .setup (.defineSubclass "LDerived;" 9),
      .setup (.addStaticField 9 "count" "I" (.primitive (.int 3))),
      .setup (.addInstanceField 9 "size" "I"), .setup (.newObject 10), .setup (.takeRef 11),
      .trackNew (.client 0) ⟨0x1000⟩, .setup (.takeRef 9), .trackNew (.client 0) ⟨0x1010⟩]

/-- The static field of the class above is told as by this class, and the other field as the zero
that it has at the start. -/
theorem inherited_fields_told : inheritor.Reachable ∧ inheritor.vm.attachFails = false ∧
    inheritor.tracker.target? inheritor.vm 1 = some 11 ∧
    (Agent.serve (.client 0) (.objectValues 1 [0x100]) inheritor).1 =
      (Agent.serve (.client 0) (.staticValues 2 [0x100]) inheritor).1 ∧
    (Agent.serve (.client 0) (.objectValues 1 [0x101]) inheritor).1 =
      .ok (.values [⟨.int, .int 0⟩]) := by
  have hreachable : inheritor.Reachable := by
    apply Agent.Reachable.run (.start {})
    decide +kernel
  have hattach : inheritor.vm.attachFails = false := by decide +kernel
  have hlive : inheritor.tracker.target? inheritor.vm 1 = some 11 := by decide +kernel
  have hcls : inheritor.vm.heap[11]?.map HeapObject.cls = some 10 := by decide +kernel
  have habove : inheritor.vm.superclassAt? 10 = some 9 := by decide +kernel
  have hunset : inheritor.vm.storedAt? 11 0x101 = none := by decide +kernel
  obtain ⟨held, hheld, -, -, -, hstatic⟩ :=
    object_field_as_declared hreachable hattach hlive (.client 0) 0x100
  obtain ⟨held', hheld', -, -, -, hinstance⟩ :=
    object_field_as_declared hreachable hattach hlive (.client 0) 0x101
  rw [hheld] at hcls hheld'
  cases hheld'
  have hcls : held.cls = 10 := Option.some.inj hcls
  have hinherits : inheritor.vm.Inherits held.cls 9 := hcls ▸ .single habove
  have htold := (hinstance 9 ⟨9, "size", "I", Access.isPrivate, .reference none, false⟩ hinherits
    (by rfl)).2 (by decide) (by decide) .int (by rfl)
  rw [hunset] at htold
  obtain ⟨value, hvalue, rfl⟩ := htold rfl
  exact ⟨hreachable, hattach, hlive, (hstatic 9
    ⟨9, "count", "I", Access.isPublic ||| Access.isStatic, .primitive (.int 3), false⟩ hinherits
      (by rfl)).1 (by decide) 2 (by decide +kernel), hvalue⟩

end Fields

end DebugAgent
