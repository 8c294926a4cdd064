import DebugAgent.Proofs.Calls
import DebugAgent.Proofs.Disposal
import DebugAgent.Proofs.Holding
import DebugAgent.Proofs.Naming
import DebugAgent.Proofs.Past

/-!
# What the client is told of values

A value that the machine keeps becomes a value of the protocol: a primitive one at the type that its
place declares, an object as the identifier by which it is known, with a tag that only its class
decides.  What the client is told depends on the heap, on the capabilities and on the identifiers in
use, and not on the references that are around or on the place that the value was read from.

`Agent.told` is what the client is told.  That reading comes to it is shown for machines without
loose ends.
-/

namespace DebugAgent

open DebugAgent.Action Command Tracking Reading

variable {a b : Agent} {h : Handle} {object : HeapId} {tag : TypeTag} {stored : Stored}

/-! ### Identifiers of objects -/

namespace Agent

/-- The identifier by which an object is known, with its entry: the tag of the object, if that is an
identifier in use. -/
def entryFor? (a : Agent) (object : HeapId) : Option (ObjectId × Tracked) :=
  (a.vm.tagAt? object).bind fun tag =>
    if 0 < tag then (a.tracker.entries.get? tag.toNat).map fun entry => (tag.toNat, entry) else none

/-- The identifier that is handed out for an object: the one by which it is known, or the next
one. -/
def idFor (a : Agent) (object : HeapId) : ObjectId :=
  (a.entryFor? object).elim a.tracker.nextId Prod.fst

/-- The agent after it has handed out the identifier of an object. -/
def handingOut (a : Agent) (object : HeapId) : Agent :=
  match a.entryFor? object with
  | some (id, entry) =>
      { a with tracker := a.tracker.setReferences id entry (entry.references + 1) }
  | none => a.enrol object

end Agent

theorem entryFor?_eq_some {id : ObjectId} {entry : Tracked}
    (h : a.entryFor? object = some (id, entry)) :
    0 < id ∧ a.vm.tagAt? object = some ↑id ∧ a.tracker.entries.get? id = some entry := by
  obtain ⟨tag, htag, hentry⟩ := Option.bind_eq_some_iff.mp h
  split at hentry
  · rename_i hpos
    obtain ⟨found, hfound, hpair⟩ := Option.map_eq_some_iff.mp hentry
    cases hpair
    have hcast : ((tag.toNat : Nat) : Int) = tag := Int.toNat_of_nonneg (Int.le_of_lt hpos)
    exact ⟨Int.pos_iff_toNat_pos.mp hpos, hcast.symm ▸ htag, hfound⟩
  · cases hentry

/-- Handing out the identifier of an object, in full. -/
theorem perform_trackNew (hgrant : a.vm.grants Capabilities.canTagObjects)
    (htarget : a.vm.target? h = some object) (hlive : object < a.vm.heap.size) :
    (trackNew h).perform a = (.ok (a.idFor object), a.handingOut object) := by
  have htag : a.vm.tagAt? object = some a.vm.heap[object].tag := by
    simp [Vm.tagAt?, Array.getElem?_eq_getElem hlive]
  cases hentry : a.entryFor? object with
  | some known =>
      obtain ⟨id, entry⟩ := known
      obtain ⟨hpos, htag, hfound⟩ := entryFor?_eq_some hentry
      rw [perform_trackNew_known hgrant htarget htag hpos hfound, Agent.idFor, Agent.handingOut,
        hentry]
      rfl
  | none =>
      have hnew : 0 < a.vm.heap[object].tag →
          a.tracker.entries.get? a.vm.heap[object].tag.toNat = none := by
        intro hpos
        simpa [Agent.entryFor?, htag, hpos] using hentry
      rw [perform_trackNew_new hgrant htarget htag hnew, Agent.idFor, Agent.handingOut, hentry]
      rfl

/-- An identifier designates an object by a valid global reference. -/
def Agent.Designates (a : Agent) (id : ObjectId) (object : HeapId) : Prop :=
  ∃ global, a.tracker.global? id = some global ∧ a.vm.HoldsGlobal global object

theorem Agent.Designates.target? {id : ObjectId} (h : a.Designates id object) :
    a.tracker.target? a.vm id = some object := by
  obtain ⟨global, hglobal, hheld⟩ := h
  rw [Tracker.target?, hglobal, Option.bind_some, hheld.target?]

/-- References are given up, and global ones are left. -/
theorem Vm.keeps_dropLocals (hs : List Handle) (vm : Vm) : vm.Keeps (hs.foldl dropLocal vm) := by
  induction hs generalizing vm with
  | nil => exact .refl vm
  | cons h hs ih =>
      refine .trans ?_ (ih (dropLocal vm h))
      rw [dropLocal]
      split
      · exact .refl vm
      · exact keeps_deleteLocalRef vm h

/-- Identifiers designate what they did as long as global references are left. -/
theorem HoldsSoundly.target?_of_keeps (hs : HoldsSoundly a) {vm : Vm} (hkeeps : a.vm.Keeps vm)
    (id : ObjectId) : a.tracker.target? vm id = a.tracker.target? a.vm id := by
  cases hglobal : a.tracker.global? id with
  | none => simp [Tracker.target?, hglobal]
  | some global =>
      obtain ⟨object, hheld⟩ := hs.valid (x := .identifier id) hglobal
      simp [Tracker.target?, hglobal, hheld.target?, (hkeeps.globals hheld).target?]

theorem Agent.Designates.setVm {id : ObjectId} (h : a.Designates id object) {vm : Vm}
    (hkeeps : a.vm.Keeps vm) : (a.setVm vm).Designates id object := by
  obtain ⟨global, hglobal, hheld⟩ := h
  exact ⟨global, hglobal, hkeeps.globals hheld⟩

/-- The identifier that is handed out designates the object, unless it was in use for something
else. -/
theorem designates_handingOut (hs : HoldsSoundly a) (hids : IdsBounded a) (object : HeapId) :
    (a.handingOut object).Designates (a.idFor object)
      ((a.tracker.target? a.vm (a.idFor object)).getD object) := by
  rw [Agent.handingOut, Agent.idFor]
  cases hentry : a.entryFor? object with
  | some known =>
      obtain ⟨id, entry⟩ := known
      obtain ⟨-, -, hfound⟩ := entryFor?_eq_some hentry
      have hglobal : a.tracker.global? id = some entry.global := by
        rw [Tracker.global?, hfound, Option.map_some]
      obtain ⟨held, hheld⟩ := hs.valid (x := .identifier id) hglobal
      have hbefore : a.Designates id held := ⟨entry.global, hglobal, hheld⟩
      rw [Option.elim_some, hbefore.target?, Option.getD_some]
      refine ⟨entry.global, ?_, hheld⟩
      simp [Tracker.setReferences, Tracker.global?]
  | none =>
      have hnew : a.tracker.target? a.vm a.tracker.nextId = none := by
        rw [Tracker.target?, Tracker.global?, hids.get?_nextId]
        rfl
      rw [Option.elim_none, hnew, Option.getD_none]
      refine ⟨⟨a.vm.lastRef + 8⟩, ?_, Vm.holdsGlobal_newRef _ object⟩
      simp [Agent.enrol, Tracker.global?, Tracker.add]
      rfl

/-! ### Objects -/

/-- The class that an object is an instance of. -/
def Vm.runtimeClass? (vm : Vm) (object : HeapId) : Option ClassBody :=
  (vm.heap[object]?).bind fun held => vm.classAt? held.cls

namespace Agent

/-- What the client is told of an object: its identifier, with the tag of its class. -/
def identified (a : Agent) (object : HeapId) : Except ProtocolError TaggedObjectId :=
  match a.vm.runtimeClass? object with
  | none => .error JvmtiError.invalidClass.toProtocol
  | some body =>
      if a.vm.grants Capabilities.canTagObjects then
        .ok ⟨.ofClass body.signature, a.idFor object⟩
      else .error JvmtiError.mustPossessCapability.toProtocol

/-- What the client is told of a value that is read at a type. -/
def told (a : Agent) (tag : TypeTag) : Stored → Except ProtocolError Value
  | .primitive v => primitiveValue tag v
  | .reference none => .ok (.ofObject ⟨if tag = .array then .array else .object, 0⟩)
  | .reference (some object) => (a.identified object).map .ofObject

end Agent

/-- Where tagging is not granted nothing is tracked. -/
theorem perform_trackNew_denied (hdenied : ¬ a.vm.grants Capabilities.canTagObjects)
    (htarget : a.vm.target? h = some object) :
    (trackNew h).perform a =
      (.error (.refused JvmtiError.mustPossessCapability.toProtocol), a) := by
  have hget : (Vm.getTag h).perform a.vm = (.error (.refused .mustPossessCapability), a.vm) := by
    simp [Vm.getTag, perform_bind, Vm.demand, hdenied]
  simp [trackNew, Vm.isNull_eq_false_of_target htarget, perform_bind, perform_call_refused hget,
    Agent.setVm]

/-- The class of an object, behind a reference to it. -/
theorem classOf_runtimeClass {held : HeapObject} (hheld : a.vm.heap[object]? = some held) :
    (a.opened held.cls).vm.classOf (a.vm.newLocal held.cls).1 =
      (a.vm.runtimeClass? object).elim (.error .invalidClass) .ok := by
  have htarget : (a.opened held.cls).vm.target? (a.vm.newLocal held.cls).1 = some held.cls :=
    Vm.target?_newRef a.vm .localRef held.cls
  have hsame : (a.opened held.cls).vm.classAt? = a.vm.classAt? := rfl
  rw [Vm.classOf, htarget, Option.bind_some, hsame, Vm.runtimeClass?, hheld, Option.bind_some]
  cases a.vm.classAt? held.cls <;> rfl

/-- The class of an object is referred to anew. -/
theorem perform_objectClassRef_live (hc : a.vm.Closed) (htarget : a.vm.target? h = some object)
    {held : HeapObject} (hheld : a.vm.heap[object]? = some held) :
    (native (Vm.objectClassRef h)).perform a =
      (.ok (a.vm.newLocal held.cls).1, a.opened held.cls) := by
  have hbehind : a.vm.object? h = some held := by
    rw [Vm.object?, htarget, Option.bind_some, hheld]
  simp [native, Vm.objectClassRef, perform_bind, Vm.perform_objectBehind hc, hbehind, Agent.opened]

/-- Tracking an object, in full.  The class of the object is referred to in the meantime. -/
theorem perform_trackObject (hc : a.vm.Closed) (hb : a.vm.RefsBounded)
    (htarget : a.vm.target? h = some object) (declared : TypeTag) : ∃ cls,
    (trackObject h declared).perform a =
      let near :=
        match a.identified object with
        | .ok _ => (a.opened cls).handingOut object
        | .error _ => a.opened cls
      ((a.identified object).mapError .refused,
        near.setVm (dropLocal near.vm (a.vm.newLocal cls).1)) := by
  have hlive : object < a.vm.heap.size := hc.target? htarget
  obtain ⟨held, hheld⟩ : ∃ held, a.vm.heap[object]? = some held :=
    ⟨_, Array.getElem?_eq_getElem hlive⟩
  have hnew : (a.vm.newLocal held.cls).1.isNull = false :=
    Vm.isNull_newRef a.vm .localRef held.cls
  have hclass := classOf_runtimeClass hheld
  have hopened : (a.opened held.cls).vm.target? h = some object :=
    Vm.target?_newRef_of_some hb htarget .localRef held.cls
  refine ⟨held.cls, ?_⟩
  rw [trackObject, if_neg (by simp [Vm.isNull_eq_false_of_target htarget]), perform_bind,
    perform_objectClassRef_live hc htarget hheld]
  dsimp only
  rw [perform_withLocal, requireRef, hnew, Agent.identified]
  cases hruntime : a.vm.runtimeClass? object with
  | none =>
      rw [hruntime] at hclass
      simp [perform_bind, ask, Vm.classSignature, hclass]
  | some body =>
      rw [hruntime] at hclass
      by_cases hgrant : a.vm.grants Capabilities.canTagObjects
      · have htrack := perform_trackNew (a := a.opened held.cls) hgrant hopened hlive
        simp [perform_bind, ask, Vm.classSignature, hclass, htrack, hgrant, Except.map]
        rfl
      · have htrack := perform_trackNew_denied (a := a.opened held.cls) hgrant hopened
        simp [perform_bind, ask, Vm.classSignature, hclass, htrack, hgrant, Except.map]

/-! ### Values -/

/-- The client is told of an object, in full.  It and its class are referred to in the meantime. -/
theorem perform_wrap_object (hc : a.vm.Closed) (hb : a.vm.RefsBounded)
    (hlive : object < a.vm.heap.size) (tag : TypeTag) : ∃ cls,
    (wrap tag (.object (a.vm.newLocal object).1)).perform (a.opened object) =
      let opened := (a.opened object).opened cls
      let near :=
        match a.identified object with
        | .ok _ => opened.handingOut object
        | .error _ => opened
      ((a.told tag (.reference (some object))).mapError .refused,
        near.setVm ([((a.opened object).vm.newLocal cls).1, (a.vm.newLocal object).1].foldl
          dropLocal near.vm)) := by
  have hopened : (a.opened object).vm.Closed := hc.newRef .localRef hlive
  have hbounded : (a.opened object).vm.RefsBounded :=
    (Vm.ages_newRef a.vm .localRef object).bounded hb
  have htarget : (a.opened object).vm.target? (a.vm.newLocal object).1 = some object :=
    Vm.target?_newRef a.vm .localRef object
  obtain ⟨cls, htrack⟩ := perform_trackObject hopened hbounded htarget tag
  refine ⟨cls, ?_⟩
  have hsame : (a.opened object).identified object = a.identified object := rfl
  rw [wrap, perform_withLocal, perform_bind, htrack, hsame, Agent.told]
  cases a.identified object <;> rfl

/-- A value that the machine gives out is told to the client. -/
theorem perform_wrap (hc : a.vm.Closed) (hb : a.vm.RefsBounded) (tag : TypeTag)
    (hstored : a.vm.Has stored.objects) :
    ((wrap tag (a.vm.giveOut stored).1).perform (a.setVm (a.vm.giveOut stored).2)).1 =
      (a.told tag stored).mapError .refused := by
  cases stored with
  | primitive v => rfl
  | reference target =>
      cases target with
      | none => rfl
      | some object =>
          obtain ⟨cls, hwrap⟩ := perform_wrap_object hc hb (Vm.has_cons.mp hstored).1 tag
          exact congrArg Prod.fst hwrap

/-- The identifier of an object that the client is told designates the object from then on, unless
it was in use for something else. -/
theorem designates_wrap (ho : InOrder a) (hs : HoldsSoundly a) (hc : a.vm.Closed)
    (hlive : object < a.vm.heap.size) (tag : TypeTag) {tagged : TaggedObjectId}
    (htold : a.identified object = .ok tagged) :
    ((wrap tag (.object (a.vm.newLocal object).1)).perform (a.opened object)).2.Designates
      tagged.objectId ((a.tracker.target? a.vm tagged.objectId).getD object) := by
  obtain ⟨cls, hwrap⟩ := perform_wrap_object hc ho.refs hlive tag
  rw [hwrap, htold]
  have hid : tagged.objectId = a.idFor object := by
    rw [Agent.identified] at htold
    split at htold
    · cases htold
    · split at htold
      · cases htold
        rfl
      · cases htold
  let opened := (a.opened object).opened cls
  have hbounded : (a.opened object).vm.RefsBounded :=
    (Vm.ages_newRef a.vm .localRef object).bounded ho.refs
  have hkeeps : a.vm.Keeps opened.vm :=
    (Vm.keeps_newRef ho.refs .localRef object).trans (Vm.keeps_newRef hbounded .localRef cls)
  have hs' : HoldsSoundly opened := hs.change ho.toOrderly (.machine hkeeps)
  have hdesignates := designates_handingOut hs' (ho.ids.of_tracker_eq rfl) object
  rw [hid, ← hs.target?_of_keeps hkeeps]
  exact hdesignates.setVm (Vm.keeps_dropLocals _ _)

/-! ### Fields -/

/-- The value that stands for a failed read. -/
def Stored.zero : ValueKind → Stored
  | .boolean => .primitive (.boolean false)
  | .byte => .primitive (.byte 0)
  | .char => .primitive (.char 0)
  | .short => .primitive (.short 0)
  | .int => .primitive (.int 0)
  | .long => .primitive (.long 0)
  | .float => .primitive (.float .zero)
  | .double => .primitive (.double .zero)
  | .object => .reference none

/-- What a read of a static field finds. -/
def FieldDecl.found (decl : FieldDecl) (kind : ValueKind) : Stored :=
  if decl.poisoned then .zero kind else decl.value

namespace Vm

variable {vm : Vm} {cls : Handle} {field : FieldId} {decl : FieldDecl} {kind : ValueKind}

/-- What an object keeps under a field, if it has been set. -/
def storedAt? (vm : Vm) (object : HeapId) (field : FieldId) : Option Stored :=
  match vm.heap[object]? with
  | some { body := .fields values, .. } => values.get? field
  | _ => none

/-- The object is one that can have fields. -/
def hasFields (vm : Vm) (object : HeapId) : Bool :=
  match vm.heap[object]? with
  | some { body := .fields _, .. } => true
  | _ => false

/-- What a read of a field of an object finds. -/
def foundAt (vm : Vm) (object : HeapId) (field : FieldId) (decl : FieldDecl) (kind : ValueKind) :
    Stored :=
  if decl.poisoned || !vm.hasFields object then .zero kind
  else (vm.storedAt? object field).getD (.zeroFor decl.signature)

/-- The machine after a field has been read.  No exception is left pending. -/
def afterRead (vm : Vm) : Vm := vm.countFieldRead.clearException

theorem giveOut_zero (vm : Vm) (kind : ValueKind) :
    vm.giveOut (.zero kind) = (.zero kind, vm) := by
  cases kind <;> rfl

end Vm

/-- The machine gives out a value that it has read. -/
def Agent.givingOut (a : Agent) (stored : Stored) : Except (Stop ProtocolError) RawValue × Agent :=
  let near := a.setVm a.vm.afterRead
  (.ok (near.vm.giveOut stored).1, near.setVm (near.vm.giveOut stored).2)

section Field

variable {cls : Handle} {field : FieldId} {decl : FieldDecl} {signature : String}
  {found : ValueKind → Stored}

theorem perform_clearing {α : Type} {read : Command α} {r : α}
    (hread : read.perform a = (.ok r, b)) :
    (clearing read).perform a = (.ok r, b.setVm b.vm.clearException) := by
  simp [clearing, perform_bind, hread, adjust, Except.map]

theorem giveOut_clearException (vm : Vm) (stored : Stored) :
    vm.clearException.giveOut stored =
      ((vm.giveOut stored).1, (vm.giveOut stored).2.clearException) := by
  rcases stored with _ | _ | _ <;> rfl

theorem perform_staticField (hcls : a.vm.target? cls = some decl.cls)
    (hdecl : a.vm.fields.get? field = some decl) (kind : ValueKind) :
    (clearing (touch (Vm.staticField cls field kind))).perform a =
      a.givingOut (decl.found kind) := by
  have hfield : a.vm.countFieldRead.fields.get? field = some decl := hdecl
  have htarget : a.vm.countFieldRead.target? cls = some decl.cls := hcls
  have hread : (touch (Vm.staticField cls field kind)).perform a =
      (.ok (a.vm.staticField cls field kind).1, a.setVm (a.vm.staticField cls field kind).2) := rfl
  rw [perform_clearing hread, Agent.givingOut, Vm.afterRead, FieldDecl.found, Vm.staticField]
  cases hpoisoned : decl.poisoned with
  | true =>
      simp [hfield, htarget, hpoisoned, Vm.giveOut_zero, Agent.setVm, Vm.raise, Vm.clearException]
  | false =>
      simp [hfield, htarget, hpoisoned, giveOut_clearException, Agent.setVm]

theorem perform_instanceField (hc : a.vm.Closed) (htarget : a.vm.target? h = some object)
    (hdecl : a.vm.fields.get? field = some decl) (kind : ValueKind) :
    (clearing (native (Vm.instanceField h field kind))).perform a =
      a.givingOut (a.vm.foundAt object field decl kind) := by
  have hfield : a.vm.countFieldRead.fields.get? field = some decl := hdecl
  have hbehind : a.vm.countFieldRead.object? h = a.vm.heap[object]? := by
    have hsame : a.vm.countFieldRead.target? h = some object := htarget
    rw [Vm.object?, hsame]
    rfl
  have hfind := Vm.perform_objectBehind (ε := ProtocolError) hc.countFieldRead h
  rw [hbehind] at hfind
  have hfailed : a.givingOut (.zero kind) =
      (.ok (RawValue.zero kind), a.setVm a.vm.countFieldRead.raise.clearException) := by
    rw [Agent.givingOut, Vm.giveOut_zero]
    rfl
  obtain ⟨held, hheld⟩ : ∃ held, a.vm.heap[object]? = some held :=
    ⟨_, Array.getElem?_eq_getElem (hc.target? htarget)⟩
  obtain ⟨cls, tag, body⟩ := held
  cases body with
  | fields values =>
      cases hpoisoned : decl.poisoned with
      | true =>
          have hread : (native (Vm.instanceField h field kind)).perform a =
              (.ok (RawValue.zero kind), a.setVm a.vm.countFieldRead.raise) := by
            simp [native, Vm.instanceField, perform_bind, hfind, hheld, hfield, hpoisoned,
              Except.map]
          rw [perform_clearing hread, Vm.foundAt, hpoisoned, Bool.true_or, if_pos rfl, hfailed]
          rfl
      | false =>
          let stored := (values.get? field).getD (.zeroFor decl.signature)
          have hread : (native (Vm.instanceField h field kind)).perform a =
              (.ok (a.vm.countFieldRead.giveOut stored).1,
                a.setVm (a.vm.countFieldRead.giveOut stored).2) := by
            simp [native, Vm.instanceField, perform_bind, hfind, hheld, hfield, hpoisoned, stored]
          rw [perform_clearing hread, Vm.foundAt, Vm.hasFields, Vm.storedAt?, hheld, hpoisoned,
            Agent.givingOut, Vm.afterRead]
          simp [giveOut_clearException, Agent.setVm, stored]
  | _ =>
      have hread : (native (Vm.instanceField h field kind)).perform a =
          (.ok (RawValue.zero kind), a.setVm a.vm.countFieldRead.raise) := by
        simp [native, Vm.instanceField, perform_bind, hfind, hheld, hfield, Except.map]
      rw [perform_clearing hread, Vm.foundAt, Vm.hasFields, hheld, if_pos (by simp), hfailed]
      rfl

/-! ### Fields of a signature -/

/-- What the client is told of a field with a signature, from what its typed read finds. -/
def Agent.toldField (a : Agent) (signature : String) (found : ValueKind → Stored) :
    Except ProtocolError Value :=
  match declaredTag signature with
  | .error cause => .error cause
  | .ok tag =>
      match tag.valueKind with
      | .error cause => .error cause
      | .ok kind => a.told tag (found kind)

/-- Reading at the type of a signature, if values are read at it. -/
theorem perform_readField {read : ValueKind → Command RawValue} {owner : FieldOwner}
    (howner : readField owner field signature = do
      let tag ← Action.ofExcept (declaredTag signature)
      let kind ← Action.ofExcept tag.valueKind
      let raw ← read kind
      wrap tag raw)
    (hread : ∀ kind, (read kind).perform a = a.givingOut (found kind)) :
    (readField owner field signature).perform a =
      match declaredTag signature with
      | .error cause => (.error (.refused cause), a)
      | .ok tag =>
          match tag.valueKind with
          | .error cause => (.error (.refused cause), a)
          | .ok kind =>
              let near := a.setVm a.vm.afterRead
              (wrap tag (near.vm.giveOut (found kind)).1).perform
                (near.setVm (near.vm.giveOut (found kind)).2) := by
  rw [howner, perform_bind]
  cases htag : declaredTag signature with
  | error cause => simp [Action.ofExcept]
  | ok tag =>
      simp only [Action.ofExcept, perform_inspect, mapError_ok, perform_bind]
      cases hkind : tag.valueKind with
      | error cause => simp
      | ok kind => simp [hread, Agent.givingOut]

/-- What a read finds is on the heap, if it is an object. -/
theorem Vm.Closed.has_found {vm : Vm} (hc : vm.Closed) (hdecl : vm.fields.get? field = some decl)
    (kind : ValueKind) : vm.Has (decl.found kind).objects := by
  rw [FieldDecl.found]
  split
  · cases kind <;> exact Vm.has_nil
  · exact (Vm.has_cons.mp (hc.fields hdecl)).2

theorem Vm.Closed.has_storedAt {vm : Vm} (hc : vm.Closed)
    (hstored : vm.storedAt? object field = some stored) : vm.Has stored.objects := by
  rw [Vm.storedAt?] at hstored
  split at hstored
  · rename_i hheld
    have hvalues := (Vm.has_cons.mp (hc.heap hheld)).2
    exact Vm.has_flatMap.mp hvalues _ (List.mem_map.mpr ⟨_, Table.mem_entries.mpr hstored, rfl⟩)
  · cases hstored

theorem Vm.Closed.has_foundAt {vm : Vm} (hc : vm.Closed) (object : HeapId) (field : FieldId)
    (decl : FieldDecl) (kind : ValueKind) :
    vm.Has (vm.foundAt object field decl kind).objects := by
  rw [Vm.foundAt]
  split
  · cases kind <;> exact Vm.has_nil
  · cases hstored : vm.storedAt? object field with
    | some stored => exact hc.has_storedAt hstored
    | none =>
        rw [Option.getD_none, Stored.objects_zeroFor]
        exact Vm.has_nil

/-- A static field is told as its class keeps it. -/
theorem perform_readStatic (hc : a.vm.Closed) (hb : a.vm.RefsBounded)
    (hcls : a.vm.target? cls = some decl.cls) (hdecl : a.vm.fields.get? field = some decl)
    (signature : String) :
    ((readField (.inClass cls) field signature).perform a).1 =
      (a.toldField signature decl.found).mapError .refused := by
  rw [perform_readField rfl (perform_staticField hcls hdecl), Agent.toldField]
  cases declaredTag signature with
  | error cause => rfl
  | ok tag =>
      dsimp only
      cases tag.valueKind with
      | error cause => rfl
      | ok kind =>
          exact perform_wrap (a := a.setVm a.vm.afterRead) (hc.of_eq rfl rfl rfl rfl rfl) hb tag
            (hc.has_found hdecl kind)

/-- A field of an object is told as the object keeps it. -/
theorem perform_readInstance (hc : a.vm.Closed) (hb : a.vm.RefsBounded)
    (htarget : a.vm.target? h = some object) (hdecl : a.vm.fields.get? field = some decl)
    (signature : String) :
    ((readField (.inObject h) field signature).perform a).1 =
      (a.toldField signature (a.vm.foundAt object field decl)).mapError .refused := by
  rw [perform_readField rfl (perform_instanceField hc htarget hdecl), Agent.toldField]
  cases declaredTag signature with
  | error cause => rfl
  | ok tag =>
      dsimp only
      cases tag.valueKind with
      | error cause => rfl
      | ok kind =>
          exact perform_wrap (a := a.setVm a.vm.afterRead) (hc.of_eq rfl rfl rfl rfl rfl) hb tag
            (hc.has_foundAt object field decl kind)

end Field

/-! ### Values that fit their type -/

/-- The value is one of the type that its place declares.  An object has to be an instance of
something. -/
def Vm.Fits (vm : Vm) (tag : TypeTag) : Stored → Prop
  | .primitive v => ValueData.agrees tag v.data
  | .reference none => tag.isObject
  | .reference (some object) => tag.isObject ∧ (vm.runtimeClass? object).isSome

theorem told_primitive {v : Primitive} (hfits : ValueData.agrees tag v.data) :
    a.told tag (.primitive v) = .ok ⟨tag, v.data⟩ := by
  have hnarrow : narrow tag v = .ok v.data := by
    cases v <;> cases tag <;> first | rfl | exact absurd hfits Bool.false_ne_true
  rw [Agent.told, primitiveValue, hnarrow]
  rfl

/-- A type that a value fits is one that can be read. -/
theorem valueKind_of_fits {vm : Vm} (hfits : vm.Fits tag stored) : ∃ kind, tag.valueKind = .ok kind := by
  cases tag with
  | void =>
      rcases stored with v | _ | _
      · cases v <;> cases hfits
      · cases hfits
      · cases hfits.1
  | _ => exact ⟨_, rfl⟩

/-- What stands for a failed read at the type of a signature is what was never set. -/
theorem zero_of_declared {signature : String} {kind : ValueKind}
    (htag : declaredTag signature = .ok tag) (hkind : tag.valueKind = .ok kind) :
    Stored.zero kind = .zeroFor signature := by
  rw [declaredTag, TypeTag.ofSignature] at htag
  rw [Stored.zeroFor]
  split at htag
  · cases htag
  · rename_i c letters hletters
    rw [hletters]
    cases hchar : TypeTag.ofChar? c with
    | none =>
        rw [hchar] at htag
        cases htag
    | some found =>
        rw [hchar] at htag
        cases htag
        unfold TypeTag.ofChar? at hchar
        split at hchar <;> cases hchar <;> cases hkind <;> rfl

/-- A field that can be read is found as it has been set, or as a field that was never set. -/
theorem Vm.foundAt_eq {vm : Vm} {field : FieldId} {decl : FieldDecl} {kind : ValueKind}
    (hsound : decl.poisoned = false) (htag : declaredTag decl.signature = .ok tag)
    (hkind : tag.valueKind = .ok kind) :
    vm.foundAt object field decl kind = (vm.storedAt? object field).getD (.zeroFor decl.signature) := by
  rw [Vm.foundAt, hsound]
  cases hfields : vm.hasFields object with
  | true => rfl
  | false =>
      have hunset : vm.storedAt? object field = none := by
        rw [Vm.hasFields] at hfields
        rw [Vm.storedAt?]
        split at hfields
        · cases hfields
        · rfl
      rw [hunset, Option.getD_none]
      exact zero_of_declared htag hkind

end DebugAgent
