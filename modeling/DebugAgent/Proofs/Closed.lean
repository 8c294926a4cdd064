import DebugAgent.Proofs.References

/-!
# Machines without loose ends

Whatever is part of a machine names objects by their place on the heap: objects name their class and
what they hold, references what they refer to, fields and methods the class that declares them,
native threads their thread objects.  A machine is closed if all that is named in it is on its heap.
A new machine is closed, and it stays so as long as the steps of the debugged world name objects that
are there.
-/

namespace DebugAgent

open DebugAgent.Action

namespace Table

variable {κ α : Type} [DecidableEq κ] {t : Table κ α} {k : κ} {a b : α} {P : α → Prop}

/-- All values of the table are such. -/
def All (P : α → Prop) (t : Table κ α) : Prop := ∀ ⦃k a⦄, t.get? k = some a → P a

theorem all_empty : ({} : Table κ α).All P := fun _ _ hget => by cases hget

theorem All.mono {Q : α → Prop} (h : t.All P) (himp : ∀ a, P a → Q a) : t.All Q :=
  fun _ a hget => himp a (h hget)

theorem All.insert (h : t.All P) (k : κ) (ha : P a) : (t.insert k a).All P := by
  intro key value hget
  rw [get?_insert] at hget
  split at hget
  · cases hget
    exact ha
  · exact h hget

theorem All.erase (h : t.All P) (k : κ) : (t.erase k).All P :=
  fun _ _ hget => h (get?_erase_eq_some.mp hget).2

theorem mem_values_of_get? (h : t.get? k = some a) : a ∈ t.values :=
  List.mem_map.mpr ⟨(k, a), mem_entries.mpr h, rfl⟩

/-- A value that is put into a table is in it, and the others were there before. -/
theorem mem_values_insert (hmem : b ∈ (t.insert k a).values) : b = a ∨ b ∈ t.values := by
  obtain ⟨⟨key, value⟩, hentry, rfl⟩ := List.mem_map.mp hmem
  rw [mem_entries, get?_insert] at hentry
  split at hentry
  · cases hentry
    exact .inl rfl
  · exact .inr (mem_values_of_get? hentry)

end Table

/-! ### What is named -/

def Stored.objects : Stored → List HeapId
  | .primitive _ => []
  | .reference target => target.toList

def ClassBody.objects (body : ClassBody) : List HeapId :=
  body.superclass.toList ++ body.interfaces

def Frame.objects (frame : Frame) : List HeapId := frame.locals.values.flatMap Stored.objects

def ThreadBody.objects (body : ThreadBody) : List HeapId :=
  body.group :: body.frames.flatMap Frame.objects

def Body.objects : Body → List HeapId
  | .classObject body => body.objects
  | .fields values => values.values.flatMap Stored.objects
  | .array elements => elements.flatMap Stored.objects
  | .text _ => []
  | .thread body => body.objects
  | .group _ => []

def HeapObject.objects (object : HeapObject) : List HeapId := object.cls :: object.body.objects

def FieldDecl.objects (decl : FieldDecl) : List HeapId := decl.cls :: decl.value.objects

/-- The objects that a step of the debugged world names. -/
def Vm.Setup.objects : Vm.Setup → List HeapId
  | .defineSubclass _ superclass => [superclass]
  | .addInterface cls interface => [cls, interface]
  | .setClassStatus cls _ | .setClassModifiers cls _ | .setSourceFile cls _
  | .setGenericSignature cls _ | .addInstanceField cls _ _ | .addMethod cls _
  | .newObject cls => [cls]
  | .addStaticField cls _ _ value => cls :: value.objects
  | .setField object _ value => object :: value.objects
  | .newArray _ elements => elements.flatMap Stored.objects
  | .failSuspend thread _ | .setThreadState thread _ | .terminateThread thread
  | .pushFrame thread _ _ | .popFrame thread | .setTopLocation thread _ => [thread]
  | .setLocal thread _ _ value => thread :: value.objects
  | .takeRef object => [object]
  | .defineClass _ | .defineInterface _ | .newString _ | .spawnThread _ | .setAttachFails _
  | .setProperty _ _ | .poisonField _ => []

namespace Vm

/-- Objects are on the heap. -/
def Has (vm : Vm) (ids : List HeapId) : Prop := ∀ id ∈ ids, id < vm.heap.size

instance (vm : Vm) (ids : List HeapId) : Decidable (vm.Has ids) :=
  inferInstanceAs (Decidable (∀ id ∈ ids, id < vm.heap.size))

/-- All that is named in the machine is on its heap. -/
structure Closed (vm : Vm) : Prop where
  builtin : classLoader < vm.heap.size
  heap : ∀ {id : HeapId} {object : HeapObject}, vm.heap[id]? = some object → vm.Has object.objects
  refs : vm.refs.All fun ref => ref.target < vm.heap.size
  fields : vm.fields.All fun decl => vm.Has decl.objects
  methods : vm.methods.All fun decl => decl.cls < vm.heap.size
  attached : vm.attached.All fun own => own < vm.heap.size

variable {vm vm' : Vm} {id : HeapId} {ids more : List HeapId}

/-! ### Objects on the heap -/

@[simp] theorem has_nil : vm.Has [] := fun _ hmem => by cases hmem

@[simp] theorem has_cons : vm.Has (id :: ids) ↔ id < vm.heap.size ∧ vm.Has ids :=
  List.forall_mem_cons

@[simp] theorem has_append : vm.Has (ids ++ more) ↔ vm.Has ids ∧ vm.Has more :=
  List.forall_mem_append

theorem has_flatMap {α : Type} {f : α → List HeapId} {as : List α} :
    vm.Has (as.flatMap f) ↔ ∀ a ∈ as, vm.Has (f a) := by
  simp only [Has, List.mem_flatMap]
  exact ⟨fun h a ha id hid => h id ⟨a, ha, hid⟩, fun h id ⟨a, ha, hid⟩ => h a ha id hid⟩

theorem Has.mono (h : vm.Has ids) (hsize : vm.heap.size ≤ vm'.heap.size) : vm'.Has ids :=
  fun id hmem => Nat.lt_of_lt_of_le (h id hmem) hsize

theorem has_values_insert {κ α : Type} [DecidableEq κ] {f : α → List HeapId} {t : Table κ α} {k : κ}
    {a : α} (hold : vm.Has (t.values.flatMap f)) (hnew : vm.Has (f a)) :
    vm.Has ((t.insert k a).values.flatMap f) := by
  rw [has_flatMap] at hold ⊢
  intro b hmem
  rcases Table.mem_values_insert hmem with rfl | hbefore
  · exact hnew
  · exact hold b hbefore

namespace Closed

theorem lt_of_builtin (h : vm.Closed) (id : HeapId) (hid : id ≤ classLoader) :
    id < vm.heap.size :=
  Nat.lt_of_le_of_lt hid h.builtin

/-! ### Changes of the machine -/

/-- The heap only grows, so what was there before stays there.  What is left to see are the objects
that are new or have changed. -/
theorem grow (h : vm.Closed) (hsize : vm.heap.size ≤ vm'.heap.size)
    (hheap : ∀ {id : HeapId} {object : HeapObject}, vm'.heap[id]? = some object →
      vm'.Has object.objects)
    (hrefs : vm'.refs = vm.refs) (hfields : vm'.fields = vm.fields)
    (hmethods : vm'.methods = vm.methods) (hattached : vm'.attached = vm.attached) :
    vm'.Closed where
  builtin := Nat.lt_of_lt_of_le h.builtin hsize
  heap := hheap
  refs := hrefs ▸ h.refs.mono fun _ hlt => Nat.lt_of_lt_of_le hlt hsize
  fields := hfields ▸ h.fields.mono fun _ hhas => hhas.mono hsize
  methods := hmethods ▸ h.methods.mono fun _ hlt => Nat.lt_of_lt_of_le hlt hsize
  attached := hattached ▸ h.attached.mono fun _ hlt => Nat.lt_of_lt_of_le hlt hsize

/-- Nothing is named but by objects, references, fields, methods and native threads. -/
theorem of_eq (h : vm.Closed) (hheap : vm'.heap = vm.heap) (hrefs : vm'.refs = vm.refs)
    (hfields : vm'.fields = vm.fields) (hmethods : vm'.methods = vm.methods)
    (hattached : vm'.attached = vm.attached) : vm'.Closed := by
  have hsize : vm.heap.size ≤ vm'.heap.size := Nat.le_of_eq (congrArg Array.size hheap.symm)
  exact h.grow hsize (fun hobject => (h.heap (hheap ▸ hobject)).mono hsize) hrefs hfields hmethods
    hattached

theorem allocate (h : vm.Closed) {cls : HeapId} (hcls : cls < vm.heap.size) (body : Body)
    (hbody : vm.Has body.objects) : (vm.allocate cls body).2.Closed := by
  have hsize : vm.heap.size ≤ (vm.allocate cls body).2.heap.size := by simp [Vm.allocate]
  refine h.grow hsize (fun hobject => ?_) rfl rfl rfl rfl
  rw [heap_allocate] at hobject
  split at hobject
  · cases hobject
    exact (has_cons.mpr ⟨hcls, hbody⟩).mono hsize
  · exact (h.heap hobject).mono hsize

/-- What an object holds may be replaced by anything whose objects are there. -/
theorem setBody (h : vm.Closed) (id : HeapId) (body : Body) (hbody : vm.Has body.objects) :
    (vm.setBody id body).Closed := by
  have hsize : vm.heap.size ≤ (vm.setBody id body).heap.size := by simp [Vm.setBody]
  refine h.grow hsize (fun hobject => ?_) rfl rfl rfl rfl
  rw [heap_setBody] at hobject
  split at hobject
  · obtain ⟨before, hbefore, rfl⟩ := Option.map_eq_some_iff.mp hobject
    exact (has_cons.mpr ⟨(has_cons.mp (h.heap hbefore)).1, hbody⟩).mono hsize
  · exact (h.heap hobject).mono hsize

theorem addClass (h : vm.Closed) {superclass : HeapId} (hsuper : superclass < vm.heap.size)
    (signature : String) (isInterface isArray : Bool) :
    (vm.addClass signature (some superclass) isInterface isArray).2.Closed :=
  h.allocate (h.lt_of_builtin classClass (by decide)) _ (has_cons.mpr ⟨hsuper, has_nil⟩)

theorem setTagAt (h : vm.Closed) (id : HeapId) (tag : Int) : (vm.setTagAt id tag).Closed := by
  have hsize : vm.heap.size ≤ (vm.setTagAt id tag).heap.size := by simp [Vm.setTagAt]
  refine h.grow hsize (fun hobject => ?_) rfl rfl rfl rfl
  rw [heap_setTagAt] at hobject
  split at hobject
  · obtain ⟨before, hbefore, rfl⟩ := Option.map_eq_some_iff.mp hobject
    have hobjects : vm.Has before.objects := h.heap hbefore
    exact hobjects.mono hsize
  · exact (h.heap hobject).mono hsize

theorem newRef (h : vm.Closed) (kind : RefKind) (hid : id < vm.heap.size) :
    (vm.newRef kind id).2.Closed :=
  ⟨h.builtin, h.heap, h.refs.insert _ hid, h.fields, h.methods, h.attached⟩

theorem deleteRef (h : vm.Closed) (kind : RefKind) (handle : Handle) :
    (vm.deleteRef kind handle).Closed := by
  rw [Vm.deleteRef]
  split
  · split
    · exact ⟨h.builtin, h.heap, h.refs.erase _, h.fields, h.methods, h.attached⟩
    · exact h
  · exact h

theorem without (h : vm.Closed) (handle : Option Handle) : (vm.without handle).Closed := by
  cases handle with
  | none => exact h
  | some gone => exact ⟨h.builtin, h.heap, h.refs.erase _, h.fields, h.methods, h.attached⟩

theorem addField (h : vm.Closed) (field next : FieldId) (decl : FieldDecl)
    (hdecl : vm.Has decl.objects) :
    ({ vm with fields := vm.fields.insert field decl, nextField := next } : Vm).Closed :=
  ⟨h.builtin, h.heap, h.refs, h.fields.insert _ hdecl, h.methods, h.attached⟩

theorem addMethod (h : vm.Closed) (method next : MethodId) (decl : MethodDecl)
    (hcls : decl.cls < vm.heap.size) :
    ({ vm with methods := vm.methods.insert method decl, nextMethod := next } : Vm).Closed :=
  ⟨h.builtin, h.heap, h.refs, h.fields, h.methods.insert _ hcls, h.attached⟩

theorem attach (h : vm.Closed) (caller : NativeThread) : (vm.attach caller).2.Closed := by
  rw [Vm.attach]
  split
  · exact h
  · let own : ThreadBody := {
      name := "jdwp-agent-" ++ toString (vm.attached.size + 1)
      state := ThreadState.started, daemon := true, group := systemGroup }
    have hbody : vm.Has (Body.thread own).objects := by
      intro id hid
      cases List.mem_singleton.mp hid
      exact h.lt_of_builtin systemGroup (by decide)
    have hnear : (vm.allocate threadClass (.thread own)).2.Closed :=
      h.allocate (h.lt_of_builtin threadClass (by decide)) _ hbody
    exact ⟨hnear.builtin, hnear.heap, hnear.refs, hnear.fields, hnear.methods,
      hnear.attached.insert caller (by simp [Vm.allocate])⟩

/-! ### Steps of the debugged world -/

theorem classAt? (h : vm.Closed) {body : ClassBody} (hclass : vm.classAt? id = some body) :
    vm.Has body.objects := by
  rw [Vm.classAt?] at hclass
  split at hclass
  · rename_i hobject
    cases hclass
    exact (has_cons.mp (h.heap hobject)).2
  · cases hclass

theorem threadAt? (h : vm.Closed) {body : ThreadBody} (hthread : vm.threadAt? id = some body) :
    vm.Has body.objects := by
  rw [Vm.threadAt?] at hthread
  split at hthread
  · rename_i hobject
    cases hthread
    exact (has_cons.mp (h.heap hobject)).2
  · cases hthread

theorem changeClass (h : vm.Closed) {f : ClassBody → ClassBody}
    (hf : ∀ body, vm.Has body.objects → vm.Has (f body).objects) (id : HeapId) :
    (vm.after (changeClass id f)).Closed := by
  simp only [after, Vm.changeClass, perform_bind, perform_look]
  cases hclass : vm.classAt? id with
  | none => exact h
  | some body => exact h.setBody id (.classObject (f body)) (hf body (h.classAt? hclass))

theorem changeThread (h : vm.Closed) {f : ThreadBody → ThreadBody}
    (hf : ∀ body, vm.Has body.objects → vm.Has (f body).objects) (id : HeapId) :
    (vm.after (changeThread id f)).Closed := by
  rw [after_changeThread]
  cases hthread : vm.threadAt? id with
  | none => exact h
  | some body => exact h.setBody id (.thread (f body)) (hf body (h.threadAt? hthread))

theorem after_bind_pure {α β : Type} (x : Build α) (r : β) :
    vm.after (x >>= fun _ => pure r) = vm.after x := by
  simp only [after, perform_bind]
  split
  · rename_i hperform
    simp [hperform]
  · rename_i hperform
    simp [hperform]

theorem declareField (h : vm.Closed) {decl : FieldDecl} (hdecl : vm.Has decl.objects) :
    (vm.after (Vm.addField decl)).Closed := by
  have hnear := h.addField vm.nextField (vm.nextField + 1) decl hdecl
  have hclass := hnear.changeClass (f := fun body =>
    { body with fields := body.fields ++ [vm.nextField] }) (fun _ hbody => hbody) decl.cls
  rwa [← after_bind_pure _ vm.nextField] at hclass

theorem declareMethod (h : vm.Closed) {cls : HeapId} (hcls : cls < vm.heap.size)
    (spec : MethodSpec) : (vm.after (Vm.addMethod cls spec)).Closed := by
  have hnear := h.addMethod vm.nextMethod (vm.nextMethod + 8) ⟨cls, spec⟩ hcls
  have hclass := hnear.changeClass (f := fun body =>
    { body with methods := body.methods ++ [vm.nextMethod] }) (fun _ hbody => hbody) cls
  rwa [← after_bind_pure _ vm.nextMethod] at hclass

theorem setField (h : vm.Closed) {value : Stored} (hvalue : vm.Has value.objects)
    (object : HeapId) (field : FieldId) : (vm.after (Vm.setField object field value)).Closed := by
  simp only [after, Vm.setField, perform_bind, perform_look]
  cases htarget : vm.heap[object]? with
  | none => exact h
  | some target =>
      have hbefore : vm.Has target.body.objects := (has_cons.mp (h.heap htarget)).2
      obtain ⟨cls, tag, body⟩ := target
      cases body with
      | fields values =>
          exact h.setBody object (.fields (values.insert field value))
            (has_values_insert hbefore hvalue)
      | _ => exact h

theorem newArray (h : vm.Closed) {elements : List Stored}
    (helements : vm.Has (elements.flatMap Stored.objects)) (signature : String) :
    (vm.after (Vm.newArray signature elements)).Closed := by
  simp only [after, Vm.newArray, perform_bind, perform_look]
  cases hcls : vm.arrayClass? signature with
  | some id =>
      have hid : id < vm.heap.size := (Array.findIdx?_eq_some_iff_getElem.mp hcls).1
      exact h.allocate hid (.array elements) helements
  | none =>
      have hclass := h.addClass (h.lt_of_builtin objectClass (by decide)) signature false true
      exact hclass.allocate (by simp [Vm.addClass, Vm.allocate]) (.array elements)
        (helements.mono (by simp [Vm.addClass, Vm.allocate]))

end Closed

/-- A frame that changes keeps its thread's objects there if it keeps its own. -/
theorem has_modify_frames {f : DebugAgent.Frame → DebugAgent.Frame}
    (hf : ∀ frame, vm.Has frame.objects → vm.Has (f frame).objects)
    {frames : List DebugAgent.Frame} (hframes : vm.Has (frames.flatMap DebugAgent.Frame.objects))
    (depth : Nat) : vm.Has ((frames.modify depth f).flatMap DebugAgent.Frame.objects) := by
  induction frames generalizing depth with
  | nil => simp
  | cons frame frames ih =>
      obtain ⟨hfirst, hrest⟩ := has_append.mp hframes
      cases depth with
      | zero => exact has_append.mpr ⟨hf frame hfirst, hrest⟩
      | succ depth => exact has_append.mpr ⟨hfirst, ih hrest depth⟩

/-- The debugged world leaves no loose ends, as long as it names objects that are there. -/
theorem Setup.closed (h : vm.Closed) {step : Setup} (hnames : vm.Has step.objects) :
    (step.apply vm).Closed := by
  cases step with
  | defineClass signature =>
      exact h.addClass (h.lt_of_builtin objectClass (by decide)) signature false false
  | defineSubclass signature superclass =>
      exact h.addClass (has_cons.mp hnames).1 signature false false
  | defineInterface signature =>
      exact h.addClass (h.lt_of_builtin objectClass (by decide)) signature true false
  | addInterface cls interface =>
      refine h.changeClass (fun body hbody => ?_) cls
      obtain ⟨hsuper, hinterfaces⟩ := has_append.mp hbody
      exact has_append.mpr ⟨hsuper, has_append.mpr ⟨hinterfaces, (has_cons.mp hnames).2⟩⟩
  | setClassStatus | setClassModifiers | setSourceFile | setGenericSignature =>
      refine h.changeClass ?_ _
      exact fun _ hbody => hbody
  | addStaticField | addInstanceField => exact h.declareField hnames
  | addMethod cls spec => exact h.declareMethod (has_cons.mp hnames).1 spec
  | newObject cls =>
      exact h.allocate (has_cons.mp hnames).1 (.fields {}) has_nil
  | setField object field value => exact h.setField (has_cons.mp hnames).2 object field
  | newArray signature elements => exact h.newArray hnames signature
  | newString value =>
      exact h.allocate (h.lt_of_builtin stringClass (by decide)) (.text value) has_nil
  | spawnThread name =>
      refine h.allocate (h.lt_of_builtin threadClass (by decide)) _ fun id hid => ?_
      cases List.mem_singleton.mp hid
      exact h.lt_of_builtin mainGroup (by decide)
  | failSuspend | setThreadState | pushFrame =>
      refine h.changeThread ?_ _
      exact fun _ hbody => hbody
  | terminateThread thread =>
      refine h.changeThread ?_ thread
      exact fun _ hbody => has_cons.mpr ⟨(has_cons.mp hbody).1, has_nil⟩
  | popFrame thread =>
      refine h.changeThread (fun body hbody => ?_) thread
      obtain ⟨hgroup, hframes⟩ := has_cons.mp hbody
      refine has_cons.mpr ⟨hgroup, has_flatMap.mpr fun frame hframe => ?_⟩
      exact has_flatMap.mp hframes frame (List.mem_of_mem_tail hframe)
  | setTopLocation thread location =>
      refine h.changeThread (fun body hbody => ?_) thread
      obtain ⟨hgroup, hframes⟩ := has_cons.mp hbody
      refine has_cons.mpr ⟨hgroup, has_modify_frames ?_ hframes 0⟩
      exact fun _ hframe => hframe
  | setLocal thread depth slot value =>
      refine h.changeThread (fun body hbody => ?_) thread
      obtain ⟨hgroup, hframes⟩ := has_cons.mp hbody
      refine has_cons.mpr ⟨hgroup, has_modify_frames (fun frame hframe => ?_) hframes depth⟩
      exact has_values_insert hframe (has_cons.mp hnames).2
  | setAttachFails | setProperty => exact h.of_eq rfl rfl rfl rfl rfl
  | poisonField field =>
      show (vm.after (Vm.poisonField field)).Closed
      simp only [after, Vm.poisonField, perform_change]
      split
      · rename_i decl hfield
        have hdecl : vm.Has decl.objects := h.fields hfield
        exact h.addField field vm.nextField { decl with poisoned := true } hdecl
      · exact h
  | takeRef object => exact h.newRef .localRef (has_cons.mp hnames).1

/-- A new machine has no loose ends. -/
theorem closed_fresh : fresh.Closed where
  builtin := by decide
  heap := by
    have hall : ∀ object ∈ fresh.heap.toList, ∀ id ∈ object.objects, id < fresh.heap.size := by
      decide +kernel
    intro id object hobject
    exact hall object (Array.mem_toList_iff.mpr (Array.mem_of_getElem? hobject))
  refs := Table.all_empty
  fields := Table.all_empty
  methods := Table.all_empty
  attached := Table.all_empty

/-! ### Callbacks -/

theorem Closed.enterCallback (h : vm.Closed) {c : Callback HeapId}
    (hnames : vm.Has (c.thread?.toList ++ c.other?.toList)) : (vm.enterCallback c).2.Closed := by
  obtain ⟨hthread, hother⟩ := has_append.mp hnames
  have hlocal : ∀ {object : Option HeapId} {vm' : Vm}, vm'.Closed → vm'.Has object.toList →
      (optionalLocal object vm').2.Closed := by
    intro object vm' h' hobject
    cases object with
    | none => exact h'
    | some id => exact h'.newRef .localRef (has_cons.mp hobject).1
  have hnear := hlocal h hthread
  have hlast := hlocal hnear (hother.mono (by cases c.thread? <;> exact Nat.le_refl _))
  rw [Vm.enterCallback]
  dsimp only
  split
  · exact hlast.of_eq rfl rfl rfl rfl rfl
  · exact hlast

theorem Closed.leaveCallback (h : vm.Closed) (c : Callback HeapId) (carried : Callback Handle) :
    (vm.leaveCallback c carried).Closed := by
  obtain ⟨inCallback, heq⟩ := leaveCallback_eq vm c carried
  have hunmarked : ({ vm with inCallback } : Vm).Closed := h.of_eq rfl rfl rfl rfl rfl
  rw [heq]
  exact (hunmarked.without _).without _

end Vm

end DebugAgent
