import DebugAgent.Proofs.Run

/-!
# What the world cannot do to the agent

The debugged world changes all the time, but there are things that only the agent changes: which
references are valid, which object carries which tag, where breakpoints are and which notifications
are enabled.  `Vm.Frame` says that a change of the machine leaves these alone and takes nothing away
that the agent relies on.  Every step of the debugged world but the taking of a reference is such a
change, and so is the attaching of a native thread.
-/

namespace DebugAgent

/-- What an object holds if it is a thread. -/
def HeapObject.thread? (object : HeapObject) : Option ThreadBody :=
  match object.body with
  | .thread body => some body
  | _ => none

/-- What an object holds if it is a class. -/
def HeapObject.class? (object : HeapObject) : Option ClassBody :=
  match object.body with
  | .classObject body => some body
  | _ => none

namespace Vm

/-- The tag of an object. -/
def tagAt? (vm : Vm) (id : HeapId) : Option Int := vm.heap[id]?.map HeapObject.tag

theorem threadAt?_eq (vm : Vm) (id : HeapId) :
    vm.threadAt? id = vm.heap[id]?.bind HeapObject.thread? := by
  rw [threadAt?]
  cases vm.heap[id]? with
  | none => rfl
  | some object =>
      obtain ⟨cls, tag, body⟩ := object
      cases body <;> rfl

theorem classAt?_eq (vm : Vm) (id : HeapId) :
    vm.classAt? id = vm.heap[id]?.bind HeapObject.class? := by
  rw [classAt?]
  cases vm.heap[id]? with
  | none => rfl
  | some object =>
      obtain ⟨cls, tag, body⟩ := object
      cases body <;> rfl

/-- A change of the machine that leaves alone what the agent has asked of it. -/
structure Steady (vm vm' : Vm) : Prop where
  breakpoints : vm'.breakpoints = vm.breakpoints
  notifications : vm'.notifications = vm.notifications
  capabilities : vm'.capabilities = vm.capabilities
  /-- Objects keep their tags. -/
  tagged : ∀ {id tag}, vm.tagAt? id = some tag → vm'.tagAt? id = some tag
  /-- New objects have none. -/
  untagged : ∀ {id tag}, vm'.tagAt? id = some tag → tag = 0 ∨ vm.tagAt? id = some tag
  /-- Threads stay threads. -/
  threads : ∀ {id}, (vm.threadAt? id).isSome → (vm'.threadAt? id).isSome
  /-- Methods stay known. -/
  methods : ∀ {method}, (vm.methods.get? method).isSome → (vm'.methods.get? method).isSome

/-- A change of the machine that is none of the agent's business. -/
structure Frame (vm vm' : Vm) : Prop extends vm.Steady vm' where
  refs : vm'.refs = vm.refs
  lastRef : vm'.lastRef = vm.lastRef

variable {vm vm' vm'' : Vm}

theorem grants_congr (h : vm'.capabilities = vm.capabilities) (capability : Capabilities → Bool) :
    vm'.grants capability = vm.grants capability := by
  rw [grants, h, ← grants]

theorem Steady.refl (vm : Vm) : vm.Steady vm := ⟨rfl, rfl, rfl, id, .inr, id, id⟩

theorem Steady.trans (h : vm.Steady vm') (h' : vm'.Steady vm'') : vm.Steady vm'' where
  breakpoints := h'.breakpoints.trans h.breakpoints
  notifications := h'.notifications.trans h.notifications
  capabilities := h'.capabilities.trans h.capabilities
  tagged := fun ht => h'.tagged (h.tagged ht)
  untagged := fun ht => (h'.untagged ht).elim .inl h.untagged
  threads := fun ht => h'.threads (h.threads ht)
  methods := fun hm => h'.methods (h.methods hm)

namespace Frame

theorem refl (vm : Vm) : vm.Frame vm := ⟨.refl vm, rfl, rfl⟩

theorem trans (h : vm.Frame vm') (h' : vm'.Frame vm'') : vm.Frame vm'' where
  toSteady := h.toSteady.trans h'.toSteady
  refs := h'.refs.trans h.refs
  lastRef := h'.lastRef.trans h.lastRef

/-- A change that does not touch the heap is a frame if the fields that matter stay. -/
theorem of_heap_eq (hheap : vm'.heap = vm.heap) (hrefs : vm'.refs = vm.refs)
    (hlast : vm'.lastRef = vm.lastRef) (hbreak : vm'.breakpoints = vm.breakpoints)
    (hnote : vm'.notifications = vm.notifications) (hcap : vm'.capabilities = vm.capabilities)
    (hmethods : ∀ {method}, (vm.methods.get? method).isSome → (vm'.methods.get? method).isSome) :
    vm.Frame vm' where
  refs := hrefs
  lastRef := hlast
  breakpoints := hbreak
  notifications := hnote
  capabilities := hcap
  tagged := by simp [tagAt?, hheap]
  untagged := by
    intro id tag h
    exact .inr (by simpa [tagAt?, hheap] using h)
  threads := by simp [threadAt?, hheap]
  methods := hmethods

end Frame

/-! ### Objects come and change -/

section Heap

variable (vm : Vm)

theorem heap_allocate (cls : HeapId) (body : Body) (id : HeapId) :
    (vm.allocate cls body).2.heap[id]? =
      if id = vm.heap.size then some { cls, body } else vm.heap[id]? := by
  simp [allocate, Array.getElem?_push]

theorem heap_setBody (id : HeapId) (body : Body) (i : HeapId) :
    (vm.setBody id body).heap[i]? =
      if id = i then vm.heap[i]?.map fun object => { object with body } else vm.heap[i]? := by
  simp [setBody, Array.getElem?_modify]

theorem heap_setTagAt (id : HeapId) (tag : Int) (i : HeapId) :
    (vm.setTagAt id tag).heap[i]? =
      if id = i then vm.heap[i]?.map fun object => { object with tag } else vm.heap[i]? := by
  simp [setTagAt, Array.getElem?_modify]

theorem tagAt?_setTagAt (id : HeapId) (tag : Int) (i : HeapId) :
    (vm.setTagAt id tag).tagAt? i =
      if id = i then (vm.tagAt? i).map fun _ => tag else vm.tagAt? i := by
  simp only [tagAt?, heap_setTagAt]
  split
  · cases vm.heap[i]? <;> rfl
  · rfl

theorem threadAt?_setTagAt (id : HeapId) (tag : Int) (i : HeapId) :
    (vm.setTagAt id tag).threadAt? i = vm.threadAt? i := by
  rw [threadAt?_eq, threadAt?_eq, heap_setTagAt]
  split
  · cases vm.heap[i]? <;> rfl
  · rfl

end Heap

theorem frame_allocate (cls : HeapId) (body : Body) : vm.Frame (vm.allocate cls body).2 where
  refs := rfl
  lastRef := rfl
  breakpoints := rfl
  notifications := rfl
  capabilities := rfl
  tagged := by
    intro id tag h
    simp only [tagAt?, heap_allocate]
    split
    · rename_i hid
      simp [tagAt?, hid] at h
    · exact h
  untagged := by
    intro id tag h
    simp only [tagAt?, heap_allocate] at h
    split at h
    · exact .inl (by simpa using h.symm)
    · exact .inr h
  threads := by
    intro id h
    simp only [threadAt?_eq, heap_allocate] at h ⊢
    split
    · rename_i hid
      simp [hid] at h
    · exact h
  methods := fun h => h

/-- What an object holds may change as long as a thread stays a thread. -/
theorem frame_setBody {id : HeapId} {body : Body}
    (hthread : (vm.threadAt? id).isSome → ∃ thread, body = .thread thread) :
    vm.Frame (vm.setBody id body) where
  refs := rfl
  lastRef := rfl
  breakpoints := rfl
  notifications := rfl
  capabilities := rfl
  tagged := by
    intro i tag h
    simp only [tagAt?, heap_setBody]
    split
    · simpa [tagAt?, Function.comp_def] using h
    · exact h
  untagged := by
    intro i tag h
    simp only [tagAt?, heap_setBody] at h
    split at h
    · exact .inr (by simpa [tagAt?, Function.comp_def] using h)
    · exact .inr h
  threads := by
    intro i h
    simp only [threadAt?_eq, heap_setBody] at h ⊢
    split
    · rename_i hid
      subst hid
      obtain ⟨thread, rfl⟩ := hthread (by rwa [threadAt?_eq])
      cases hobject : vm.heap[id]? with
      | none => simp [hobject] at h
      | some object => rfl
    · exact h
  methods := fun h => h

theorem frame_setThread (id : HeapId) (body : ThreadBody) :
    vm.Frame (vm.setBody id (.thread body)) :=
  frame_setBody fun _ => ⟨body, rfl⟩

/-- An object that is no thread may hold anything from now on. -/
theorem frame_setOther {id : HeapId} (body : Body) (h : vm.threadAt? id = none) :
    vm.Frame (vm.setBody id body) :=
  frame_setBody fun hthread => by simp [h] at hthread

theorem threadAt?_of_classAt? {id : HeapId} {body : ClassBody} (h : vm.classAt? id = some body) :
    vm.threadAt? id = none := by
  rw [classAt?_eq] at h
  rw [threadAt?_eq]
  cases hobject : vm.heap[id]? with
  | none => rfl
  | some object =>
      rw [hobject] at h
      obtain ⟨cls, tag, body⟩ := object
      cases body <;> first | rfl | cases h

/-! ### Steps of the debugged world -/

theorem frame_changeClass (id : HeapId) (f : ClassBody → ClassBody) :
    vm.Frame (vm.after (changeClass id f)) := by
  simp only [after, changeClass, Action.perform_bind, Action.perform_look]
  cases h : vm.classAt? id with
  | none => exact Frame.refl vm
  | some body => exact frame_setOther _ (threadAt?_of_classAt? h)

theorem after_changeThread (vm : Vm) (id : HeapId) (f : ThreadBody → ThreadBody) :
    vm.after (changeThread id f) =
      (vm.threadAt? id).elim vm fun body => vm.setBody id (.thread (f body)) := by
  simp only [after, changeThread, Action.perform_bind, Action.perform_look]
  cases vm.threadAt? id <;> rfl

theorem frame_changeThread (id : HeapId) (f : ThreadBody → ThreadBody) :
    vm.Frame (vm.after (changeThread id f)) := by
  rw [after_changeThread]
  cases h : vm.threadAt? id with
  | none => exact Frame.refl vm
  | some body => exact frame_setThread id _

theorem frame_bind {α β : Type} {x : Build α} {f : α → Build β} (hx : vm.Frame (vm.after x))
    (hf : ∀ a vm', Frame vm' (vm'.after (f a))) : vm.Frame (vm.after (x >>= f)) := by
  simp only [after, Action.perform_bind] at hx ⊢
  split
  · rename_i a vm' h
    rw [h] at hx
    exact hx.trans (hf a vm')
  · rename_i h
    rwa [h] at hx

theorem frame_addField (decl : FieldDecl) : vm.Frame (vm.after (addField decl)) := by
  refine frame_bind (Frame.of_heap_eq rfl rfl rfl rfl rfl rfl fun h => h) fun id vm' => ?_
  exact frame_bind (frame_changeClass decl.cls _) fun _ vm' => Frame.refl vm'

theorem frame_addMethod (cls : HeapId) (spec : MethodSpec) :
    vm.Frame (vm.after (addMethod cls spec)) := by
  refine frame_bind (Frame.of_heap_eq rfl rfl rfl rfl rfl rfl ?_) fun id vm' => ?_
  · exact fun h => Table.isSome_get?_insert h
  · exact frame_bind (frame_changeClass cls _) fun _ vm' => Frame.refl vm'

theorem frame_setField (object : HeapId) (field : FieldId) (value : Stored) :
    vm.Frame (vm.after (setField object field value)) := by
  simp only [after, setField, Action.perform_bind, Action.perform_look]
  cases h : vm.heap[object]? with
  | none => exact Frame.refl vm
  | some target =>
      obtain ⟨cls, tag, body⟩ := target
      cases body with
      | fields values => exact frame_setOther _ (by simp [threadAt?_eq, h, HeapObject.thread?])
      | _ => exact Frame.refl vm

theorem frame_newArray (signature : String) (elements : List Stored) :
    vm.Frame (vm.after (newArray signature elements)) := by
  simp only [after, newArray, Action.perform_bind, Action.perform_look]
  cases vm.arrayClass? signature with
  | some id => exact frame_allocate id _
  | none => exact (frame_allocate classClass _).trans (frame_allocate _ _)

theorem frame_poisonField (field : FieldId) : vm.Frame (vm.after (poisonField field)) := by
  simp only [after, poisonField, Action.perform_change]
  split
  · exact Frame.of_heap_eq rfl rfl rfl rfl rfl rfl fun h => h
  · exact Frame.refl vm

/-- The debugged world goes on behind a frame; all that it does beyond is to take references. -/
theorem Setup.apply_cases (vm : Vm) (step : Setup) :
    vm.Frame (step.apply vm) ∨ ∃ object, step.apply vm = (vm.newLocal object).2 := by
  cases step with
  | takeRef object => exact .inr ⟨object, rfl⟩
  | defineClass | defineSubclass | defineInterface => exact .inl (frame_allocate _ _)
  | newObject | newString | spawnThread => exact .inl (frame_allocate _ _)
  | addInterface | setClassStatus | setClassModifiers | setSourceFile | setGenericSignature =>
      exact .inl (frame_changeClass _ _)
  | addStaticField | addInstanceField => exact .inl (frame_addField _)
  | addMethod => exact .inl (frame_addMethod _ _)
  | setField => exact .inl (frame_setField _ _ _)
  | newArray => exact .inl (frame_newArray _ _)
  | failSuspend | setThreadState | terminateThread | pushFrame | popFrame | setTopLocation
  | setLocal => exact .inl (frame_changeThread _ _)
  | setAttachFails | setProperty =>
      exact .inl (Frame.of_heap_eq rfl rfl rfl rfl rfl rfl fun h => h)
  | poisonField => exact .inl (frame_poisonField _)

/-! ### Native threads and callbacks -/

theorem frame_attach (caller : NativeThread) : vm.Frame (vm.attach caller).2 := by
  rw [attach]
  split
  · exact Frame.refl vm
  · exact (frame_allocate threadClass _).trans
      (Frame.of_heap_eq rfl rfl rfl rfl rfl rfl fun h => h)

/-- Attaching a native thread changes nothing about the objects that there are. -/
theorem heap_attach {object : HeapId} {held : HeapObject}
    (hobject : vm.heap[object]? = some held) (caller : NativeThread) :
    (vm.attach caller).2.heap[object]? = some held := by
  rw [attach]
  split
  · exact hobject
  · have hold : object ≠ vm.heap.size := by
      rintro rfl
      simp at hobject
    exact (heap_allocate vm _ _ object).trans ((if_neg hold).trans hobject)

/-- The thread object that is made for a native thread is no class. -/
theorem classAt?_attach (vm : Vm) (caller : NativeThread) (id : HeapId) :
    (vm.attach caller).2.classAt? id = vm.classAt? id := by
  rw [classAt?_eq, classAt?_eq]
  cases hobject : vm.heap[id]? with
  | some held => rw [heap_attach hobject]
  | none =>
      rw [attach]
      split
      · rw [hobject]
      · change Option.bind (vm.allocate threadClass _).2.heap[id]? _ = _
        rw [heap_allocate, hobject]
        split <;> rfl

end Vm

end DebugAgent
