import DebugAgent.Proofs.Closed
import DebugAgent.Proofs.Safe

/-!
# Calls on machines without loose ends

Whatever references a call of the machine's interfaces is given, it does not break on a machine
without loose ends, and leaves one.  All that a call relies on is that the objects that it has looked
up in the machine are on its heap.
-/

namespace DebugAgent

open DebugAgent.Action

namespace Stored

/-- A value that is read as another kind names no other objects. -/
theorem objects_asSlot {stored value : Stored} {kind : SlotKind}
    (hslot : stored.asSlot kind = some value) : value.objects ⊆ stored.objects := by
  unfold asSlot at hslot
  split at hslot <;> cases hslot <;> simp [objects]

theorem objects_zeroFor (signature : String) : (zeroFor signature).objects = [] := by
  unfold zeroFor
  split <;> rfl

end Stored

namespace Vm

variable {vm : Vm} {h cls thread : Handle} {id : HeapId} {ids : List HeapId} {ε : Type}

/-! ### What is looked up -/

/-- The object behind a reference. -/
def object? (vm : Vm) (h : Handle) : Option HeapObject := (vm.target? h).bind fun id => vm.heap[id]?

/-- The elements of the array behind a reference. -/
def elements? (vm : Vm) (h : Handle) : Option (List Stored) :=
  match vm.object? h with
  | some { body := .array elements, .. } => some elements
  | _ => none

/-- A local variable that can be read is one of a frame of the thread. -/
theorem localVariable_ok {depth slot : Int} {kind : SlotKind} {value : Stored}
    (hvalue : vm.localVariable thread depth slot kind = .ok value) :
    ∃ body frame stored, vm.threadOf thread = .ok body ∧ frame ∈ body.frames ∧
      frame.locals.get? slot = some stored ∧ stored.asSlot kind = some value := by
  simp only [localVariable, bind, Except.bind] at hvalue
  split at hvalue
  · cases hvalue
  split at hvalue
  · cases hvalue
  rename_i body hthread
  split at hvalue
  · cases hvalue
  split at hvalue
  · cases hvalue
  split at hvalue
  · cases hvalue
  rename_i frame hframe
  split at hvalue
  · cases hvalue
  rename_i stored hstored
  split at hvalue
  · cases hvalue
  rename_i read hslot
  cases hvalue
  exact ⟨body, frame, stored, hthread, List.mem_of_getElem? hframe, hstored, hslot⟩

namespace Closed

/-- Every heap index behind a reference is inside the heap. -/
theorem target? (hc : vm.Closed) (htarget : vm.target? h = some id) : id < vm.heap.size := by
  rw [Vm.target?] at htarget
  split at htarget
  · cases htarget
  · obtain ⟨ref, href, rfl⟩ := Option.map_eq_some_iff.mp htarget
    exact hc.refs href

theorem object? (hc : vm.Closed) {object : HeapObject} (hobject : vm.object? h = some object) :
    vm.Has object.objects := by
  obtain ⟨id, -, hheap⟩ := Option.bind_eq_some_iff.mp hobject
  exact hc.heap hheap

theorem elements? (hc : vm.Closed) {elements : List Stored}
    (helements : vm.elements? h = some elements) {element : Stored} (hmem : element ∈ elements) :
    vm.Has element.objects := by
  rw [Vm.elements?] at helements
  split at helements
  · rename_i hobject
    cases helements
    have hall := (has_cons.mp (hc.object? hobject)).2
    exact has_flatMap.mp hall element hmem
  · cases helements

theorem classOf (hc : vm.Closed) {body : ClassBody} (hclass : vm.classOf cls = .ok body) :
    vm.Has body.objects := by
  rw [Vm.classOf] at hclass
  split at hclass
  · rename_i hfound
    cases hclass
    obtain ⟨id, -, hat⟩ := Option.bind_eq_some_iff.mp hfound
    exact hc.classAt? hat
  · cases hclass

theorem preparedClassOf (hc : vm.Closed) {body : ClassBody}
    (hclass : vm.preparedClassOf cls = .ok body) : vm.Has body.objects := by
  rw [Vm.preparedClassOf] at hclass
  split at hclass
  · cases hclass
  · rename_i hfound
    split at hclass
    · cases hclass
      exact hc.classOf hfound
    · cases hclass

theorem threadOf (hc : vm.Closed) {body : ThreadBody} (hthread : vm.threadOf thread = .ok body) :
    vm.Has body.objects := by
  rw [Vm.threadOf] at hthread
  split at hthread
  · rename_i hfound
    cases hthread
    obtain ⟨id, -, hat⟩ := Option.bind_eq_some_iff.mp hfound
    exact hc.threadAt? hat
  · cases hthread

theorem methodOf (hc : vm.Closed) {method : MethodId} {decl : MethodDecl}
    (hmethod : vm.methodOf method = .ok decl) : decl.cls < vm.heap.size := by
  rw [Vm.methodOf] at hmethod
  split at hmethod
  · rename_i hfound
    cases hmethod
    exact hc.methods hfound
  · cases hmethod

theorem superclass? (hc : vm.Closed) (hsuper : vm.superclass? cls = some id) :
    id < vm.heap.size := by
  rw [Vm.superclass?] at hsuper
  split at hsuper
  · rename_i body hfound
    obtain ⟨owner, -, hat⟩ := Option.bind_eq_some_iff.mp hfound
    split at hsuper
    · cases hsuper
    · have hobjects := (has_append.mp (hc.classAt? hat)).1
      exact hobjects id (Option.mem_toList.mpr hsuper)
  · cases hsuper

theorem localVariable (hc : vm.Closed) {depth slot : Int} {kind : SlotKind} {value : Stored}
    (hvalue : vm.localVariable thread depth slot kind = .ok value) : vm.Has value.objects := by
  obtain ⟨body, frame, stored, hthread, hframe, hstored, hslot⟩ := localVariable_ok hvalue
  have hframes := (has_cons.mp (hc.threadOf hthread)).2
  have hlocals := has_flatMap.mp hframes frame hframe
  have hvalues := has_flatMap.mp hlocals stored (Table.mem_values_of_get? hstored)
  exact fun id hid => hvalues id (Stored.objects_asSlot hslot hid)

/-! ### References that are handed out -/

theorem newLocals (hc : vm.Closed) (hids : vm.Has ids) : (vm.newLocals ids).2.Closed := by
  induction ids generalizing vm with
  | nil => exact hc
  | cons id ids ih =>
      obtain ⟨hfirst, hrest⟩ := has_cons.mp hids
      exact ih (hc.newRef .localRef hfirst) hrest

theorem giveOut (hc : vm.Closed) {value : Stored} (hvalue : vm.Has value.objects) :
    (vm.giveOut value).2.Closed := by
  cases value with
  | primitive v => exact hc
  | reference target =>
      cases target with
      | none => exact hc
      | some id => exact hc.newRef .localRef (has_cons.mp hvalue).1

theorem newLocalRef (hc : vm.Closed) (h : Handle) : (vm.newLocalRef h).2.Closed := by
  rw [Vm.newLocalRef]
  split
  · rename_i htarget
    exact hc.newRef .localRef (hc.target? htarget)
  · exact hc

theorem newGlobalRef (hc : vm.Closed) (h : Handle) : (vm.newGlobalRef h).2.Closed := by
  rw [Vm.newGlobalRef]
  split
  · rename_i htarget
    exact hc.newRef .globalRef (hc.target? htarget)
  · exact hc

theorem superclassRef (hc : vm.Closed) (cls : Handle) : (vm.superclassRef cls).2.Closed := by
  rw [Vm.superclassRef]
  split
  · rename_i hsuper
    exact hc.newRef .localRef (hc.superclass? hsuper)
  · exact hc

theorem raise (hc : vm.Closed) : vm.raise.Closed := hc.of_eq rfl rfl rfl rfl rfl

theorem clearException (hc : vm.Closed) : vm.clearException.Closed := hc.of_eq rfl rfl rfl rfl rfl

theorem countFieldRead (hc : vm.Closed) : vm.countFieldRead.Closed := hc.of_eq rfl rfl rfl rfl rfl

theorem staticField (hc : vm.Closed) (cls : Handle) (field : FieldId) (kind : ValueKind) :
    (vm.staticField cls field kind).2.Closed := by
  rw [Vm.staticField]
  split
  · rename_i decl hfield
    split
    · exact hc.countFieldRead.giveOut (has_cons.mp (hc.fields hfield)).2
    · exact hc.countFieldRead.raise
  · exact hc.countFieldRead.raise

end Closed

/-! ### Calls that look at objects -/

/-- What a reference refers to is there. -/
theorem perform_objectBehind (hc : vm.Closed) (h : Handle) :
    (objectBehind h : Action Vm ε _).perform vm = (.ok (vm.object? h), vm) := by
  simp only [objectBehind, object?, perform_bind, perform_look]
  cases htarget : vm.target? h with
  | none => rfl
  | some id =>
      obtain ⟨object, hobject⟩ : ∃ object, vm.heap[id]? = some object :=
        ⟨_, Array.getElem?_eq_getElem (hc.target? htarget)⟩
      simp only [hobject, Option.bind_some, perform_bind, perform_look, perform_expect_some]
      rfl

theorem perform_elementsBehind (hc : vm.Closed) (h : Handle) :
    (elementsBehind h : Action Vm ε _).perform vm = (.ok (vm.elements? h), vm) := by
  rw [elementsBehind, perform_bind, perform_objectBehind hc, elements?]
  cases vm.object? h with
  | none => rfl
  | some object =>
      obtain ⟨cls, tag, body⟩ := object
      cases body <;> rfl

theorem safe_objectClassRef (h : Handle) : (objectClassRef h : Action Vm ε _).Safe Closed := by
  intro vm hc
  refine .step (perform_objectBehind hc h) ?_
  cases hobject : vm.object? h with
  | none => exact .pure _ hc
  | some object => exact .update (hc.newRef .localRef (has_cons.mp (hc.object? hobject)).1)

/-- A read that fails raises an exception. -/
theorem SafeAt.raise {α : Type} (hc : vm.Closed) (a : α) :
    (do change raise; return a : Action Vm ε α).SafeAt Closed vm :=
  .step (perform_change Vm.raise vm) (.pure a hc.raise)

theorem safe_instanceField (h : Handle) (field : FieldId) (kind : ValueKind) :
    (instanceField h field kind : Action Vm ε _).Safe Closed := by
  intro vm hc
  have hcounted := hc.countFieldRead
  refine .step (perform_change countFieldRead vm) (.look ?_)
  refine .step (perform_objectBehind hcounted h) ?_
  split
  · rename_i decl cls tag values hdecl hobject
    split
    · exact SafeAt.raise hcounted _
    · refine .update (hcounted.giveOut ?_)
      have hvalues := (has_cons.mp (hcounted.object? hobject)).2
      cases hstored : values.get? field with
      | none => simp [Stored.objects_zeroFor]
      | some stored => exact has_flatMap.mp hvalues stored (Table.mem_values_of_get? hstored)
  · exact SafeAt.raise hcounted _

theorem safe_arrayLength (array : Handle) : (arrayLength array : Action Vm ε _).Safe Closed := by
  intro vm hc
  refine .step (perform_elementsBehind hc array) ?_
  cases vm.elements? array with
  | none => exact .pure _ hc
  | some elements => exact .pure _ hc

theorem safe_arrayRegion (array : Handle) (kind : ValueKind) (start length : Int) :
    (arrayRegion array kind start length : Action Vm ε _).Safe Closed := by
  intro vm hc
  refine .step (perform_elementsBehind hc array) ?_
  cases vm.elements? array with
  | none => exact SafeAt.raise hc _
  | some elements =>
      dsimp only
      split
      · exact .pure _ hc
      · exact SafeAt.raise hc _

theorem safe_arrayElement (array : Handle) (index : Int) :
    (arrayElement array index : Action Vm ε _).Safe Closed := by
  intro vm hc
  refine .step (perform_elementsBehind hc array) ?_
  dsimp only
  split
  · rename_i id helement
    obtain ⟨elements, helements, hfound⟩ := Option.bind_eq_some_iff.mp helement
    split at hfound
    · cases hfound
    · have hobjects := hc.elements? helements (List.mem_of_getElem? hfound)
      exact .update (hc.newRef .localRef (has_cons.mp hobjects).1)
  · exact .pure _ hc
  · exact SafeAt.raise hc _

theorem safe_stringChars (h : Handle) : (stringChars h : Action Vm ε _).Safe Closed := by
  intro vm hc
  refine .step (perform_objectBehind hc h) ?_
  split
  · exact .pure _ hc
  · exact .pure _ hc

/-! ### Calls that hand out references -/

theorem safe_loadedClasses : loadedClasses.Safe Closed := by
  refine safe_update fun vm hc => hc.newLocals fun id hid => ?_
  exact List.mem_range.mp (List.mem_filter.mp hid).1

theorem safe_implementedInterfaces (cls : Handle) : (implementedInterfaces cls).Safe Closed :=
  fun _ hc => .inspect hc fun _ hclass =>
    .update (hc.newLocals (has_append.mp (hc.preparedClassOf hclass)).2)

theorem safe_methodDeclaringClass (method : MethodId) :
    (methodDeclaringClass method).Safe Closed :=
  fun _ hc => .inspect hc fun _ hmethod => .update (hc.newRef .localRef (hc.methodOf hmethod))

theorem safe_allThreads : allThreads.Safe Closed := by
  refine safe_update fun vm hc => hc.newLocals fun id hid => ?_
  exact List.mem_range.mp (List.mem_filter.mp hid).1

theorem safe_currentThread (caller : NativeThread) : (currentThread caller).Safe Closed :=
  fun _ hc => .look (.require hc fun _ hown => .update (hc.newRef .localRef (hc.attached hown)))

theorem safe_topThreadGroups : topThreadGroups.Safe Closed :=
  safe_update fun _ hc =>
    hc.newLocals (has_cons.mpr ⟨hc.lt_of_builtin systemGroup (by decide), has_nil⟩)

theorem safe_threadInfo (thread : Handle) : (threadInfo thread).Safe Closed := by
  refine fun vm hc => .inspect hc fun body hthread => ?_
  have hgroup := hc.newRef .localRef (has_cons.mp (hc.threadOf hthread)).1
  refine .step (perform_update (newLocal body.group) vm) ?_
  refine .step (perform_update (newLocal classLoader) _) (.pure _ ?_)
  exact hgroup.newRef .localRef hgroup.builtin

theorem safe_getLocal (thread : Handle) (depth slot : Int) (kind : SlotKind) :
    (getLocal thread depth slot kind).Safe Closed :=
  fun _ hc => .inspect hc fun _ hvalue => .update (hc.giveOut (hc.localVariable hvalue))

/-! ### Calls that stop threads -/

/-- The object behind a reference can be looked at. -/
theorem SafeAt.there {α : Type} (hc : vm.Closed) (cause : JvmtiError) (h : Handle)
    {f : HeapId → HeapObject → Call α} (hf : ∀ id object, (f id object).SafeAt Closed vm) :
    (do
      let id ← require cause (← look fun vm : Vm => vm.target? h)
      let object ← expect (← look fun vm : Vm => vm.heap[id]?)
      f id object : Call α).SafeAt Closed vm := by
  refine .look (.require hc fun id htarget => .look ?_)
  rw [Array.getElem?_eq_getElem (hc.target? htarget)]
  exact .step (perform_expect_some _ vm) (hf id _)

theorem safe_locateThread (thread : Handle) : (locateThread thread).Safe Closed := by
  refine fun vm hc => SafeAt.there hc _ thread fun id object => ?_
  split
  · exact .pure _ hc
  · exact .refuse _ hc

theorem safe_suspendOne (caller : NativeThread) (thread : Handle) :
    (suspendOne caller thread).Safe Closed := by
  refine safe_bind (safe_change fun vm hc => ?_) fun _ vm hc =>
    .bind (safe_locateThread thread vm hc) ?_
  · split
    · split
      · exact hc.of_eq rfl rfl rfl rfl rfl
      · exact hc
    · exact hc
  · rintro ⟨id, body⟩ _ hlocated _
    obtain ⟨rfl, hthread⟩ := locateThread_ok hlocated
    have hbody := hc.threadAt? hthread
    dsimp only
    split
    · exact .refuse _ hc
    · split
      · exact .refuse _ hc
      · split
        · exact .refuse _ hc
        · exact .change (hc.setBody id _ hbody)

theorem safe_resumeOne (thread : Handle) : (resumeOne thread).Safe Closed := by
  refine fun vm hc => .bind (safe_locateThread thread vm hc) ?_
  rintro ⟨id, body⟩ _ hlocated _
  obtain ⟨rfl, hthread⟩ := locateThread_ok hlocated
  have hbody := hc.threadAt? hthread
  dsimp only
  split
  · exact .refuse _ hc
  · split
    · exact .refuse _ hc
    · exact .change (hc.setBody id _ hbody)

theorem safe_suspendThread (caller : NativeThread) (thread : Handle) :
    (suspendThread caller thread).Safe Closed :=
  safe_bind (safe_inspect _) fun _ => safe_suspendOne caller thread

theorem safe_resumeThread (thread : Handle) : (resumeThread thread).Safe Closed :=
  safe_bind (safe_inspect _) fun _ => safe_resumeOne thread

theorem safe_suspendThreads (caller : NativeThread) (threads : List Handle) :
    (suspendThreads caller threads).Safe Closed :=
  safe_bind (safe_inspect _) fun _ =>
    safe_mapM (fun thread => safe_attempt (safe_suspendOne caller thread)) threads

theorem safe_resumeThreads (threads : List Handle) : (resumeThreads threads).Safe Closed :=
  safe_bind (safe_inspect _) fun _ =>
    safe_mapM (fun thread => safe_attempt (safe_resumeOne thread)) threads

/-! ### Tags, breakpoints and notifications -/

theorem safe_getTag (h : Handle) : (getTag h).Safe Closed :=
  safe_bind (safe_inspect _) fun _ _ hc => SafeAt.there hc _ h fun _ _ => .pure _ hc

theorem safe_setTag (h : Handle) (tag : Int) : (setTag h tag).Safe Closed :=
  safe_bind (safe_inspect _) fun _ _ hc =>
    SafeAt.there hc _ h fun id _ => .change (hc.setTagAt id tag)

theorem safe_setBreakpoint (method : MethodId) (location : CodeIndex) :
    (setBreakpoint method location).Safe Closed := by
  refine safe_bind (safe_inspect _) fun _ => safe_bind (safe_inspect _) fun decl => ?_
  refine safe_ite (safe_refuse _) (safe_bind (safe_look _) fun _ => ?_)
  exact safe_ite (safe_refuse _) (safe_change fun _ hc => hc.of_eq rfl rfl rfl rfl rfl)

theorem safe_clearBreakpoint (method : MethodId) (location : CodeIndex) :
    (clearBreakpoint method location).Safe Closed := by
  refine safe_bind (safe_inspect _) fun _ => safe_bind (safe_inspect _) fun _ => ?_
  refine safe_bind (safe_look _) fun _ => ?_
  exact safe_ite (safe_change fun _ hc => hc.of_eq rfl rfl rfl rfl rfl) (safe_refuse _)

theorem safe_setNotification (enable : Bool) (kind : CallbackKind) (thread : Option Handle) :
    (setNotification enable kind thread).Safe Closed :=
  safe_bind (safe_inspect _) fun _ => safe_bind (safe_inspect _) fun _ =>
    safe_change fun _ hc => hc.of_eq rfl rfl rfl rfl rfl

end Vm

end DebugAgent
