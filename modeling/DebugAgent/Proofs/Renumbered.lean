import DebugAgent.Proofs.Calls
import DebugAgent.Proofs.Lockstep
import DebugAgent.Proofs.Run

/-!
# References under other numbers

Two machines may have given out different numbers of references on the way to the same state.  A
pairing says which references of the one stand for which references of the other, now and in the
future, since new ones are numbered from the last one on.  Nothing that is asked of a machine shows
which numbers its references have: to references that stand for each other the machines answer
alike, and they keep step.
-/

namespace DebugAgent

open DebugAgent.Action

/-- Which references of a machine stand for which ones of another.  Those up to a number are the same
in both. -/
structure Pairing where
  stands : Handle → Handle → Prop
  limit : Nat
  old : ∀ {h}, h.raw ≤ limit → stands h h
  unique : ∀ {h k k'}, stands h k → stands h k' → k = k'
  unique' : ∀ {h h' k}, stands h k → stands h' k → h = h'

namespace Pairing

variable {p : Pairing} {h h' k k' : Handle}

theorem null (p : Pairing) : p.stands .null .null := p.old (Nat.zero_le _)

/-- References that are the same are so in both machines. -/
theorem raw_eq_iff (p : Pairing) (hk : p.stands h k) (hk' : p.stands h' k') :
    k.raw = k'.raw ↔ h.raw = h'.raw := by
  constructor
  · intro hraw
    have hsame : k' = k := congrArg Handle.mk hraw.symm
    exact congrArg Handle.raw (p.unique' hk (hsame ▸ hk'))
  · intro hraw
    have hsame : h' = h := congrArg Handle.mk hraw.symm
    exact congrArg Handle.raw (p.unique hk (hsame ▸ hk'))

/-- Only null stands for null. -/
theorem isNull_eq (p : Pairing) (hk : p.stands h k) : k.isNull = h.isNull :=
  decide_eq_decide.mpr (p.raw_eq_iff hk p.null)

end Pairing

/-- A value that the machine gives out, up to the number of the reference that it may be. -/
inductive RawValue.Paired (p : Pairing) : RawValue → RawValue → Prop where
  | primitive (v : Primitive) : Paired p (.primitive v) (.primitive v)
  | object {h k : Handle} (hk : p.stands h k) : Paired p (.object h) (.object k)

namespace Vm

/-- Two machines that differ at most in the numbers of their references. -/
structure Paired (p : Pairing) (vm vm' : Vm) : Prop where
  world : ∃ refs lastRef, vm' = { vm with refs, lastRef }
  refs : ∀ {h k}, p.stands h k → vm'.refs.get? k.raw = vm.refs.get? h.raw
  ahead : ∀ {n}, 0 < n → p.stands ⟨vm.lastRef + n⟩ ⟨vm'.lastRef + n⟩
  limit : p.limit ≤ vm.lastRef ∧ p.limit ≤ vm'.lastRef

variable {p : Pairing} {vm vm' : Vm} {h k : Handle}

namespace Paired

/-! ### Queries -/

/-- What does not depend on references is the same. -/
theorem same (hv : vm.Paired p vm') {α : Type} {f : Vm → α}
    (hf : ∀ vm refs lastRef, f { vm with refs, lastRef } = f vm) : f vm' = f vm := by
  obtain ⟨refs, lastRef, rfl⟩ := hv.world
  exact hf vm refs lastRef

theorem target? (hv : vm.Paired p vm') (hk : p.stands h k) : vm'.target? k = vm.target? h := by
  rw [Vm.target?, Vm.target?, p.isNull_eq hk, hv.refs hk]

theorem heap (hv : vm.Paired p vm') : vm'.heap = vm.heap := hv.same fun _ _ _ => rfl

theorem classAt? (hv : vm.Paired p vm') : vm'.classAt? = vm.classAt? := hv.same fun _ _ _ => rfl

theorem threadAt? (hv : vm.Paired p vm') : vm'.threadAt? = vm.threadAt? :=
  hv.same fun _ _ _ => rfl

theorem classOf (hv : vm.Paired p vm') (hk : p.stands h k) : vm'.classOf k = vm.classOf h := by
  rw [Vm.classOf, Vm.classOf, hv.target? hk, hv.classAt?]

theorem preparedClassOf (hv : vm.Paired p vm') (hk : p.stands h k) :
    vm'.preparedClassOf k = vm.preparedClassOf h := by
  rw [Vm.preparedClassOf, Vm.preparedClassOf, hv.classOf hk]

theorem threadOf (hv : vm.Paired p vm') (hk : p.stands h k) : vm'.threadOf k = vm.threadOf h := by
  rw [Vm.threadOf, Vm.threadOf, hv.target? hk, hv.threadAt?]

theorem fieldOf (hv : vm.Paired p vm') (hk : p.stands h k) (field : FieldId) :
    vm'.fieldOf k field = vm.fieldOf h field := by
  have hfields : vm'.fields = vm.fields := hv.same fun _ _ _ => rfl
  rw [Vm.fieldOf, Vm.fieldOf, hv.target? hk, hfields]

theorem fieldName (hv : vm.Paired p vm') (hk : p.stands h k) (field : FieldId) :
    vm'.fieldName k field = vm.fieldName h field := by
  rw [Vm.fieldName, Vm.fieldName, hv.classOf hk, hv.fieldOf hk]

theorem superclass? (hv : vm.Paired p vm') (hk : p.stands h k) :
    vm'.superclass? k = vm.superclass? h := by
  rw [Vm.superclass?, Vm.superclass?, hv.target? hk, hv.classAt?]

theorem isSameObject (hv : vm.Paired p vm') {h' k' : Handle} (hk : p.stands h k)
    (hk' : p.stands h' k') : vm'.isSameObject k k' = vm.isSameObject h h' := by
  rw [Vm.isSameObject, Vm.isSameObject, hv.target? hk, hv.target? hk']

theorem demand (hv : vm.Paired p vm') (capability : Capabilities → Bool) :
    vm'.demand capability = vm.demand capability :=
  hv.same (f := fun vm => vm.demand capability) fun _ _ _ => rfl

theorem frameCount (hv : vm.Paired p vm') (hk : p.stands h k) :
    vm'.frameCount k = vm.frameCount h := by
  rw [Vm.frameCount, Vm.frameCount, hv.threadOf hk]

theorem localVariable (hv : vm.Paired p vm') (hk : p.stands h k) (depth slot : Int)
    (kind : SlotKind) : vm'.localVariable k depth slot kind = vm.localVariable h depth slot kind := by
  have hinside : vm'.inCallback = vm.inCallback := hv.same fun _ _ _ => rfl
  rw [Vm.localVariable, Vm.localVariable, hv.threadOf hk, hv.target? hk, hv.demand, hinside]

/-! ### Changes -/

/-- References that stand for each other are gone. -/
theorem eraseRef (hv : vm.Paired p vm') (hk : p.stands h k) :
    ({ vm with refs := vm.refs.erase h.raw } : Vm).Paired p
      { vm' with refs := vm'.refs.erase k.raw } := by
  refine ⟨?_, fun {h' k'} hk' => ?_, hv.ahead, hv.limit⟩
  · obtain ⟨refs, lastRef, rfl⟩ := hv.world
    exact ⟨_, _, rfl⟩
  · have hraw := p.raw_eq_iff hk' hk
    rw [Table.get?_erase, Table.get?_erase, hv.refs hk']
    simp only [hraw]

theorem deleteRef (hv : vm.Paired p vm') (hk : p.stands h k) (kind : RefKind) :
    (vm.deleteRef kind h).Paired p (vm'.deleteRef kind k) := by
  rw [Vm.deleteRef, Vm.deleteRef, hv.refs hk]
  cases vm.refs.get? h.raw with
  | none => exact hv
  | some ref =>
      dsimp only
      split
      · exact hv.eraseRef hk
      · exact hv

/-- New references to the same object stand for each other. -/
theorem newRef (hv : vm.Paired p vm') (kind : RefKind) (object : HeapId) :
    p.stands (vm.newRef kind object).1 (vm'.newRef kind object).1 ∧
      (vm.newRef kind object).2.Paired p (vm'.newRef kind object).2 := by
  refine ⟨hv.ahead (by decide), ?_, ?_, ?_, ?_⟩
  · obtain ⟨refs, lastRef, rfl⟩ := hv.world
    exact ⟨_, _, rfl⟩
  · intro h k hk
    have hnew := p.raw_eq_iff hk (hv.ahead (by decide : 0 < 8))
    rw [get?_newRef, get?_newRef, hv.refs hk]
    simp only [hnew]
  · intro n hn
    have hlater := hv.ahead (Nat.lt_of_lt_of_le hn (Nat.le_add_left n 8))
    rwa [← Nat.add_assoc, ← Nat.add_assoc] at hlater
  · exact ⟨Nat.le_trans hv.limit.1 (Nat.le_add_right _ _),
      Nat.le_trans hv.limit.2 (Nat.le_add_right _ _)⟩

/-- A change of what is not a reference is the same change of both machines. -/
theorem change (hv : vm.Paired p vm') {f : Vm → Vm}
    (hf : ∀ vm refs lastRef, f { vm with refs, lastRef } = { f vm with refs, lastRef }) :
    (f vm).Paired p (f vm') := by
  have hkept : ∀ vm : Vm, (f vm).refs = vm.refs ∧ (f vm).lastRef = vm.lastRef := by
    intro vm
    have hsame : f vm = { f vm with refs := vm.refs, lastRef := vm.lastRef } := hf vm _ _
    constructor <;> rw [hsame]
  refine ⟨?_, fun hk => ?_, fun hn => ?_, ?_⟩
  · obtain ⟨refs, lastRef, rfl⟩ := hv.world
    exact ⟨refs, lastRef, hf vm refs lastRef⟩
  · rw [(hkept vm).1, (hkept vm').1, hv.refs hk]
  · rw [(hkept vm).2, (hkept vm').2]
    exact hv.ahead hn
  · rw [(hkept vm).2, (hkept vm').2]
    exact hv.limit

theorem newLocals (hv : vm.Paired p vm') (ids : List HeapId) :
    List.Forall₂ p.stands (vm.newLocals ids).1 (vm'.newLocals ids).1 ∧
      (vm.newLocals ids).2.Paired p (vm'.newLocals ids).2 := by
  induction ids generalizing vm vm' with
  | nil => exact ⟨.nil, hv⟩
  | cons id ids ih =>
      obtain ⟨hk, hnear⟩ := hv.newRef .localRef id
      obtain ⟨hks, hlast⟩ := ih hnear
      exact ⟨.cons hk hks, hlast⟩

/-- The same value is given out. -/
theorem giveOut (hv : vm.Paired p vm') (stored : Stored) :
    RawValue.Paired p (vm.giveOut stored).1 (vm'.giveOut stored).1 ∧
      (vm.giveOut stored).2.Paired p (vm'.giveOut stored).2 := by
  rcases stored with v | _ | object
  · exact ⟨.primitive v, hv⟩
  · exact ⟨.object p.null, hv⟩
  · obtain ⟨hk, hnear⟩ := hv.newRef .localRef object
    exact ⟨.object hk, hnear⟩

end Paired

/-! ### Calls of the tool interface -/

section Calls

variable {h' k' : Handle} {ε : Type}

theorem lockstep_target (hk : p.stands h k) :
    Lockstep (Paired p) Eq (look fun vm => vm.target? h : Action Vm ε (Option HeapId))
      (look fun vm => vm.target? k) :=
  lockstep_look fun hv => (hv.target? hk).symm

theorem lockstep_demand (capability : Capabilities → Bool) :
    Lockstep (Paired p) Eq (inspect fun vm => vm.demand capability)
      (inspect fun vm => vm.demand capability) :=
  lockstep_inspect fun hv => (hv.demand capability).symm

theorem lockstep_heap (id : HeapId) :
    Lockstep (Paired p) Eq (look fun vm => vm.heap[id]? : Action Vm ε (Option HeapObject))
      (look fun vm => vm.heap[id]?) :=
  lockstep_look fun hv => by rw [hv.heap]

theorem lockstep_methodOf (method : MethodId) :
    Lockstep (Paired p) Eq (inspect fun vm => vm.methodOf method)
      (inspect fun vm => vm.methodOf method) :=
  lockstep_inspect fun hv => (hv.same (f := fun vm => vm.methodOf method) fun _ _ _ => rfl).symm

/-- A change of both machines that does not depend on references. -/
theorem lockstep_world {f : Vm → Vm}
    (hf : ∀ vm refs lastRef, f { vm with refs, lastRef } = { f vm with refs, lastRef }) :
    Lockstep (Paired p) Eq (change f : Action Vm ε Unit) (change f) :=
  lockstep_change fun hv => hv.change hf

theorem lockstep_newLocal (id : HeapId) :
    Lockstep (Paired p) p.stands (update (newLocal id) : Action Vm ε Handle)
      (update (newLocal id)) :=
  lockstep_update fun hv => hv.newRef .localRef id

theorem lockstep_newLocals {ids : Vm → List HeapId}
    (hids : ∀ vm refs lastRef, ids { vm with refs, lastRef } = ids vm) :
    Lockstep (Paired p) (List.Forall₂ p.stands)
      (update fun vm => vm.newLocals (ids vm) : Action Vm ε (List Handle))
      (update fun vm => vm.newLocals (ids vm)) := by
  refine lockstep_update fun {vm vm'} hv => ?_
  have hsame : ids vm' = ids vm := hv.same hids
  rw [hsame]
  exact hv.newLocals _

theorem lockstep_loadedClasses :
    Lockstep (Paired p) (List.Forall₂ p.stands) loadedClasses loadedClasses :=
  lockstep_newLocals fun _ _ _ => rfl

theorem lockstep_allThreads :
    Lockstep (Paired p) (List.Forall₂ p.stands) allThreads allThreads :=
  lockstep_newLocals fun _ _ _ => rfl

theorem lockstep_topThreadGroups :
    Lockstep (Paired p) (List.Forall₂ p.stands) topThreadGroups topThreadGroups :=
  lockstep_newLocals fun _ _ _ => rfl

theorem lockstep_implementedInterfaces (hk : p.stands h k) :
    Lockstep (Paired p) (List.Forall₂ p.stands) (implementedInterfaces h)
      (implementedInterfaces k) :=
  lockstep_bind_eq (lockstep_inspect fun hv => (hv.preparedClassOf hk).symm) fun _ =>
    lockstep_newLocals fun _ _ _ => rfl

theorem lockstep_methodDeclaringClass (method : MethodId) :
    Lockstep (Paired p) p.stands (methodDeclaringClass method) (methodDeclaringClass method) :=
  lockstep_bind_eq (lockstep_methodOf method) fun decl => lockstep_newLocal decl.cls

theorem lockstep_currentThread (caller : NativeThread) :
    Lockstep (Paired p) p.stands (currentThread caller) (currentThread caller) :=
  lockstep_bind_eq (lockstep_look fun hv =>
      (hv.same (f := fun vm => vm.attached.get? caller) fun _ _ _ => rfl).symm) fun own? =>
    lockstep_bind_eq (lockstep_require _ own?) fun own => lockstep_newLocal own

/-- What is told about a thread, with references that stand for each other. -/
structure ThreadInfo.Paired (p : Pairing) (info info' : ThreadInfo) : Prop where
  name : info'.name = info.name
  group : p.stands info.group info'.group
  loader : p.stands info.loader info'.loader

theorem lockstep_threadInfo (hk : p.stands h k) :
    Lockstep (Paired p) (ThreadInfo.Paired p) (threadInfo h) (threadInfo k) :=
  lockstep_bind_eq (lockstep_inspect fun hv => (hv.threadOf hk).symm) fun body =>
    lockstep_bind (lockstep_newLocal body.group) fun hgroup =>
      lockstep_bind (lockstep_newLocal classLoader) fun hloader =>
        lockstep_pure ⟨rfl, hgroup, hloader⟩

theorem lockstep_locateThread (hk : p.stands h k) :
    Lockstep (Paired p) Eq (locateThread h) (locateThread k) := by
  refine lockstep_bind_eq (lockstep_target hk) fun target => ?_
  refine lockstep_bind_eq (lockstep_require _ target) fun id => ?_
  refine lockstep_bind_eq (lockstep_heap id) fun object => ?_
  refine lockstep_bind_eq (lockstep_expect object) fun object => ?_
  obtain ⟨cls, tag, body⟩ := object
  cases body with
  | thread body => exact lockstep_pure rfl
  | _ => exact lockstep_refuse _

theorem lockstep_setBody (id : HeapId) (body : Body) :
    Lockstep (Paired p) Eq (change (setBody id body) : Action Vm ε Unit)
      (change (setBody id body)) :=
  lockstep_world fun _ _ _ => rfl

theorem lockstep_suspendOne (hk : p.stands h k) (caller : NativeThread) :
    Lockstep (Paired p) Eq (suspendOne caller h) (suspendOne caller k) := by
  refine lockstep_bind_eq (lockstep_change fun {vm vm'} hv => ?_) fun _ => ?_
  · have hattached : vm'.attached.get? caller = vm.attached.get? caller :=
      hv.same (f := fun vm => vm.attached.get? caller) fun _ _ _ => rfl
    rw [hattached, hv.target? hk]
    split
    · split
      · exact hv.change (f := fun vm => { vm with selfSuspensions := vm.selfSuspensions + 1 })
          fun _ _ _ => rfl
      · exact hv
    · exact hv
  · refine lockstep_bind_eq (lockstep_locateThread hk) fun ⟨id, body⟩ => ?_
    dsimp only
    split
    · exact lockstep_refuse _
    · exact lockstep_ite (lockstep_refuse _) (lockstep_ite (lockstep_refuse _)
        (lockstep_setBody id _))

theorem lockstep_resumeOne (hk : p.stands h k) :
    Lockstep (Paired p) Eq (resumeOne h) (resumeOne k) :=
  lockstep_bind_eq (lockstep_locateThread hk) fun ⟨id, _⟩ =>
    lockstep_ite (lockstep_refuse _) (lockstep_ite (lockstep_refuse _) (lockstep_setBody id _))

theorem lockstep_suspendThread (hk : p.stands h k) (caller : NativeThread) :
    Lockstep (Paired p) Eq (suspendThread caller h) (suspendThread caller k) :=
  lockstep_bind_eq (lockstep_demand _) fun _ => lockstep_suspendOne hk caller

theorem lockstep_resumeThread (hk : p.stands h k) :
    Lockstep (Paired p) Eq (resumeThread h) (resumeThread k) :=
  lockstep_bind_eq (lockstep_demand _) fun _ => lockstep_resumeOne hk

theorem lockstep_suspendThreads {hs ks : List Handle} (hks : List.Forall₂ p.stands hs ks)
    (caller : NativeThread) :
    Lockstep (Paired p) Eq (suspendThreads caller hs) (suspendThreads caller ks) :=
  lockstep_bind_eq (lockstep_demand _) fun _ =>
    lockstep_mapM_eq (P := p.stands)
      (fun hk => lockstep_attempt_eq (lockstep_suspendOne hk caller)) hks

theorem lockstep_resumeThreads {hs ks : List Handle} (hks : List.Forall₂ p.stands hs ks) :
    Lockstep (Paired p) Eq (resumeThreads hs) (resumeThreads ks) :=
  lockstep_bind_eq (lockstep_demand _) fun _ =>
    lockstep_mapM_eq (P := p.stands) (fun hk => lockstep_attempt_eq (lockstep_resumeOne hk)) hks

theorem lockstep_getLocal (hk : p.stands h k) (depth slot : Int) (kind : SlotKind) :
    Lockstep (Paired p) (RawValue.Paired p) (getLocal h depth slot kind)
      (getLocal k depth slot kind) :=
  lockstep_bind_eq (lockstep_inspect fun hv => (hv.localVariable hk depth slot kind).symm)
    fun value => lockstep_update fun hv => hv.giveOut value

theorem lockstep_getTag (hk : p.stands h k) :
    Lockstep (Paired p) Eq (getTag h) (getTag k) :=
  lockstep_bind_eq (lockstep_demand _) fun _ =>
    lockstep_bind_eq (lockstep_target hk) fun target =>
      lockstep_bind_eq (lockstep_require _ target) fun id =>
        lockstep_bind_eq (lockstep_heap id) fun object =>
          lockstep_bind_eq (lockstep_expect object) fun _ => lockstep_pure rfl

theorem lockstep_setTag (hk : p.stands h k) (tag : Int) :
    Lockstep (Paired p) Eq (setTag h tag) (setTag k tag) :=
  lockstep_bind_eq (lockstep_demand _) fun _ =>
    lockstep_bind_eq (lockstep_target hk) fun target =>
      lockstep_bind_eq (lockstep_require _ target) fun id =>
        lockstep_bind_eq (lockstep_heap id) fun object =>
          lockstep_bind_eq (lockstep_expect object) fun _ => lockstep_world fun _ _ _ => rfl

theorem lockstep_isBreakpoint (method : MethodId) (location : CodeIndex) :
    Lockstep (Paired p) Eq (look fun vm => vm.isBreakpoint method location : Call Bool)
      (look fun vm => vm.isBreakpoint method location) :=
  lockstep_look fun hv =>
    (hv.same (f := fun vm => vm.isBreakpoint method location) fun _ _ _ => rfl).symm

theorem lockstep_setBreakpoint (method : MethodId) (location : CodeIndex) :
    Lockstep (Paired p) Eq (setBreakpoint method location) (setBreakpoint method location) :=
  lockstep_bind_eq (lockstep_demand _) fun _ =>
    lockstep_bind_eq (lockstep_methodOf method) fun _ =>
      lockstep_ite (lockstep_refuse _) (lockstep_bind_eq (lockstep_isBreakpoint method location)
        fun _ => lockstep_ite (lockstep_refuse _) (lockstep_world fun _ _ _ => rfl))

theorem lockstep_clearBreakpoint (method : MethodId) (location : CodeIndex) :
    Lockstep (Paired p) Eq (clearBreakpoint method location) (clearBreakpoint method location) :=
  lockstep_bind_eq (lockstep_demand _) fun _ =>
    lockstep_bind_eq (lockstep_methodOf method) fun _ =>
      lockstep_bind_eq (lockstep_isBreakpoint method location) fun _ =>
        lockstep_ite (lockstep_world fun _ _ _ => rfl) (lockstep_refuse _)

theorem Paired.notifiedThread (hv : vm.Paired p vm') {thread thread' : Option Handle}
    (ht : Option.Rel p.stands thread thread') :
    vm'.notifiedThread thread' = vm.notifiedThread thread := by
  cases ht with
  | none => rfl
  | some hk => rw [Vm.notifiedThread, Vm.notifiedThread, hv.target? hk, hv.threadAt?]

theorem lockstep_setNotification (enable : Bool) (kind : CallbackKind)
    {thread thread' : Option Handle} (ht : Option.Rel p.stands thread thread') :
    Lockstep (Paired p) Eq (setNotification enable kind thread)
      (setNotification enable kind thread') :=
  lockstep_bind_eq (lockstep_inspect fun hv =>
      (hv.same (f := fun vm => vm.demandFor kind) fun _ _ _ => rfl).symm) fun _ =>
    lockstep_bind_eq (lockstep_inspect fun hv => (hv.notifiedThread ht).symm) fun _ =>
      lockstep_world fun _ _ _ => rfl

/-! ### Calls of the native interface -/

theorem Paired.newLocalRef (hv : vm.Paired p vm') (hk : p.stands h k) :
    p.stands (vm.newLocalRef h).1 (vm'.newLocalRef k).1 ∧
      (vm.newLocalRef h).2.Paired p (vm'.newLocalRef k).2 := by
  rw [Vm.newLocalRef, Vm.newLocalRef, hv.target? hk]
  cases vm.target? h with
  | none => exact ⟨p.null, hv⟩
  | some id => exact hv.newRef .localRef id

theorem Paired.newGlobalRef (hv : vm.Paired p vm') (hk : p.stands h k) :
    p.stands (vm.newGlobalRef h).1 (vm'.newGlobalRef k).1 ∧
      (vm.newGlobalRef h).2.Paired p (vm'.newGlobalRef k).2 := by
  rw [Vm.newGlobalRef, Vm.newGlobalRef, hv.target? hk]
  cases vm.target? h with
  | none => exact ⟨p.null, hv⟩
  | some id => exact hv.newRef .globalRef id

theorem Paired.superclassRef (hv : vm.Paired p vm') (hk : p.stands h k) :
    p.stands (vm.superclassRef h).1 (vm'.superclassRef k).1 ∧
      (vm.superclassRef h).2.Paired p (vm'.superclassRef k).2 := by
  rw [Vm.superclassRef, Vm.superclassRef, hv.superclass? hk]
  cases vm.superclass? h with
  | none => exact ⟨p.null, hv⟩
  | some id => exact hv.newRef .localRef id

theorem Paired.raise (hv : vm.Paired p vm') : vm.raise.Paired p vm'.raise :=
  hv.change fun _ _ _ => rfl

theorem pairedValue_zero (kind : ValueKind) : RawValue.Paired p (.zero kind) (.zero kind) := by
  cases kind with
  | object => exact .object p.null
  | _ => exact .primitive _

theorem Paired.staticField (hv : vm.Paired p vm') (hk : p.stands h k) (field : FieldId)
    (kind : ValueKind) :
    RawValue.Paired p (vm.staticField h field kind).1 (vm'.staticField k field kind).1 ∧
      (vm.staticField h field kind).2.Paired p (vm'.staticField k field kind).2 := by
  have hcounted : vm.countFieldRead.Paired p vm'.countFieldRead := hv.change fun _ _ _ => rfl
  have hfields : vm'.countFieldRead.fields = vm.countFieldRead.fields :=
    hcounted.same fun _ _ _ => rfl
  simp only [Vm.staticField, hfields, hcounted.target? hk]
  split
  · split
    · exact hcounted.giveOut _
    · exact ⟨pairedValue_zero kind, hcounted.raise⟩
  · exact ⟨pairedValue_zero kind, hcounted.raise⟩

theorem lockstep_objectBehind (hk : p.stands h k) :
    Lockstep (Paired p) Eq (objectBehind h : Action Vm ε (Option HeapObject)) (objectBehind k) := by
  refine lockstep_bind_eq (lockstep_target hk) fun target => ?_
  cases target with
  | none => exact lockstep_pure rfl
  | some id =>
      exact lockstep_bind_eq (lockstep_heap id) fun object =>
        lockstep_bind_eq (lockstep_expect object) fun _ => lockstep_pure rfl

theorem lockstep_objectClassRef (hk : p.stands h k) :
    Lockstep (Paired p) p.stands (objectClassRef h : Action Vm ε Handle) (objectClassRef k) := by
  refine lockstep_bind_eq (lockstep_objectBehind hk) fun object => ?_
  cases object with
  | none => exact lockstep_pure p.null
  | some object => exact lockstep_newLocal object.cls

theorem lockstep_raise : Lockstep (Paired p) Eq (change raise : Action Vm ε Unit) (change raise) :=
  lockstep_world fun _ _ _ => rfl

theorem lockstep_instanceField (hk : p.stands h k) (field : FieldId) (kind : ValueKind) :
    Lockstep (Paired p) (RawValue.Paired p) (instanceField h field kind : Action Vm ε RawValue)
      (instanceField k field kind) := by
  have hfailed : Lockstep (Paired p) (RawValue.Paired p)
      (do change raise; return .zero kind : Action Vm ε RawValue)
      (do change raise; return .zero kind) :=
    lockstep_bind_eq lockstep_raise fun _ => lockstep_pure (pairedValue_zero kind)
  refine lockstep_bind_eq (lockstep_world fun _ _ _ => rfl) fun _ => ?_
  refine lockstep_bind_eq (lockstep_look fun hv =>
    (hv.same (f := fun vm => vm.fields.get? field) fun _ _ _ => rfl).symm) fun decl => ?_
  refine lockstep_bind_eq (lockstep_objectBehind hk) fun object => ?_
  split
  · split
    · exact hfailed
    · exact lockstep_update fun hv => hv.giveOut _
  · exact hfailed

theorem lockstep_elementsBehind (hk : p.stands h k) :
    Lockstep (Paired p) Eq (elementsBehind h : Action Vm ε (Option (List Stored)))
      (elementsBehind k) := by
  refine lockstep_bind_eq (lockstep_objectBehind hk) fun object => ?_
  split <;> exact lockstep_pure rfl

theorem lockstep_arrayLength (hk : p.stands h k) :
    Lockstep (Paired p) Eq (arrayLength h : Action Vm ε Int) (arrayLength k) := by
  refine lockstep_bind_eq (lockstep_elementsBehind hk) fun elements => ?_
  split <;> exact lockstep_pure rfl

/-- References in a run of elements count as null, which is the same in both machines. -/
theorem lockstep_arrayRegion (hk : p.stands h k) (kind : ValueKind) (start length : Int) :
    Lockstep (Paired p) Eq (arrayRegion h kind start length : Action Vm ε (List RawValue))
      (arrayRegion k kind start length) := by
  have hfailed : Lockstep (Paired p) Eq
      (do change raise; return [] : Action Vm ε (List RawValue)) (do change raise; return []) :=
    lockstep_bind_eq lockstep_raise fun _ => lockstep_pure rfl
  refine lockstep_bind_eq (lockstep_elementsBehind hk) fun elements => ?_
  split
  · exact lockstep_ite (lockstep_pure rfl) hfailed
  · exact hfailed

theorem lockstep_arrayElement (hk : p.stands h k) (index : Int) :
    Lockstep (Paired p) p.stands (arrayElement h index : Action Vm ε Handle)
      (arrayElement k index) := by
  refine lockstep_bind_eq (lockstep_elementsBehind hk) fun elements => ?_
  dsimp only
  split
  · exact lockstep_newLocal _
  · exact lockstep_pure p.null
  · exact lockstep_bind_eq lockstep_raise fun _ => lockstep_pure p.null

theorem lockstep_stringChars (hk : p.stands h k) :
    Lockstep (Paired p) Eq (stringChars h : Action Vm ε (Option String)) (stringChars k) := by
  refine lockstep_bind_eq (lockstep_objectBehind hk) fun object => ?_
  split <;> exact lockstep_pure rfl

end Calls

/-! ### The debugged world -/

section World

/-- What is put into both machines is the same. -/
theorem lockstep_make {α : Type} {f : Vm → α × Vm} (hf : ∀ vm refs lastRef,
    f { vm with refs, lastRef } = ((f vm).1, { (f vm).2 with refs, lastRef })) :
    Lockstep (Paired p) Eq (update f : Build α) (update f) := by
  have hfirst : ∀ vm refs lastRef, (f { vm with refs, lastRef }).1 = (f vm).1 :=
    fun vm refs lastRef => by rw [hf]
  have hsecond : ∀ vm refs lastRef,
      (f { vm with refs, lastRef }).2 = { (f vm).2 with refs, lastRef } :=
    fun vm refs lastRef => by rw [hf]
  refine lockstep_update fun {vm vm'} hv => ⟨?_, ?_⟩
  · exact (hv.same (f := fun vm => (f vm).1) hfirst).symm
  · exact hv.change (f := fun vm => (f vm).2) hsecond

theorem lockstep_allocate (cls : HeapId) (body : Body) :
    Lockstep (Paired p) Eq (update (allocate cls body) : Build HeapId)
      (update (allocate cls body)) :=
  lockstep_make fun _ _ _ => rfl

theorem lockstep_addClass (signature : String) (superclass : Option HeapId)
    (isInterface isArray : Bool) :
    Lockstep (Paired p) Eq
      (update fun vm => vm.addClass signature superclass isInterface isArray : Build HeapId)
      (update fun vm => vm.addClass signature superclass isInterface isArray) :=
  lockstep_make fun _ _ _ => rfl

theorem lockstep_changeClass (id : HeapId) (f : ClassBody → ClassBody) :
    Lockstep (Paired p) Eq (changeClass id f) (changeClass id f) :=
  lockstep_bind_eq (lockstep_look fun hv => by rw [hv.classAt?]) fun body =>
    lockstep_bind_eq (lockstep_expect body) fun _ => lockstep_setBody id _

theorem lockstep_changeThread (id : HeapId) (f : ThreadBody → ThreadBody) :
    Lockstep (Paired p) Eq (changeThread id f) (changeThread id f) :=
  lockstep_bind_eq (lockstep_look fun hv => by rw [hv.threadAt?]) fun body =>
    lockstep_bind_eq (lockstep_expect body) fun _ => lockstep_setBody id _

theorem lockstep_addField (decl : FieldDecl) :
    Lockstep (Paired p) Eq (addField decl) (addField decl) :=
  lockstep_bind_eq (lockstep_make fun _ _ _ => rfl) fun _ =>
    lockstep_bind_eq (lockstep_changeClass _ _) fun _ => lockstep_pure rfl

theorem lockstep_addMethod (cls : HeapId) (spec : MethodSpec) :
    Lockstep (Paired p) Eq (addMethod cls spec) (addMethod cls spec) :=
  lockstep_bind_eq (lockstep_make fun _ _ _ => rfl) fun _ =>
    lockstep_bind_eq (lockstep_changeClass _ _) fun _ => lockstep_pure rfl

theorem lockstep_setField (object : HeapId) (field : FieldId) (value : Stored) :
    Lockstep (Paired p) Eq (setField object field value) (setField object field value) := by
  refine lockstep_bind_eq (lockstep_heap object) fun target => ?_
  refine lockstep_bind_eq (lockstep_expect target) fun target => ?_
  split
  · exact lockstep_setBody object _
  · exact lockstep_pure rfl

theorem lockstep_newArray (signature : String) (elements : List Stored) :
    Lockstep (Paired p) Eq (newArray signature elements) (newArray signature elements) := by
  refine lockstep_bind_eq (lockstep_look fun hv =>
    (hv.same (f := fun vm => vm.arrayClass? signature) fun _ _ _ => rfl).symm) fun cls => ?_
  cases cls with
  | some id => exact lockstep_allocate _ _
  | none => exact lockstep_bind_eq (lockstep_addClass _ _ _ _) fun _ => lockstep_allocate _ _

theorem Paired.after {α : Type} {x : Build α} (hv : vm.Paired p vm')
    (hx : Lockstep (Paired p) Eq x x) : (vm.after x).Paired p (vm'.after x) :=
  (hx.alike hv).states

/-- The debugged world goes on alike. -/
theorem Paired.setup (hv : vm.Paired p vm') (step : Setup) :
    (step.apply vm).Paired p (step.apply vm') := by
  cases step with
  | defineClass | defineSubclass | defineInterface =>
      exact hv.after (lockstep_addClass _ _ _ _)
  | newObject | newString | spawnThread => exact hv.after (lockstep_allocate _ _)
  | addInterface | setClassStatus | setClassModifiers | setSourceFile | setGenericSignature =>
      exact hv.after (lockstep_changeClass _ _)
  | addStaticField | addInstanceField => exact hv.after (lockstep_addField _)
  | addMethod cls spec => exact hv.after (lockstep_addMethod cls spec)
  | setField object field value => exact hv.after (lockstep_setField object field value)
  | newArray signature elements => exact hv.after (lockstep_newArray signature elements)
  | failSuspend | setThreadState | terminateThread | pushFrame | popFrame | setTopLocation
  | setLocal => exact hv.after (lockstep_changeThread _ _)
  | setAttachFails | setProperty => exact hv.after (lockstep_world fun _ _ _ => rfl)
  | poisonField field =>
      refine hv.after (lockstep_world fun vm refs lastRef => ?_)
      dsimp only
      cases vm.fields.get? field <;> rfl
  | takeRef object => exact (hv.newRef .localRef object).2

theorem Paired.attach (hv : vm.Paired p vm') (caller : NativeThread) :
    (vm.attach caller).2.Paired p (vm'.attach caller).2 := by
  refine hv.change (f := fun vm => (vm.attach caller).2) fun vm refs lastRef => ?_
  simp only [Vm.attach]
  cases vm.attached.get? caller <;> rfl

end World

/-! ### Callbacks -/

section Callbacks

theorem Paired.delivers (hv : vm.Paired p vm') (c : Callback HeapId) :
    vm'.delivers c = vm.delivers c := by
  refine hv.same (f := fun vm => vm.delivers c) fun vm refs lastRef => ?_
  cases c <;> rfl

/-- References that stand for each other and have been made already. -/
structure Known (p : Pairing) (vm vm' : Vm) (h k : Handle) : Prop where
  stands : p.stands h k
  le : h.raw ≤ vm.lastRef
  le' : k.raw ≤ vm'.lastRef

theorem Known.ages {later later' : Vm} (hk : Known p vm vm' h k) (ha : vm.Ages later)
    (ha' : vm'.Ages later') : Known p later later' h k :=
  ⟨hk.stands, Nat.le_trans hk.le ha.lastRef_le, Nat.le_trans hk.le' ha'.lastRef_le⟩

/-- The reference that a machine has made last. -/
theorem Paired.known_newRef (hv : vm.Paired p vm') (kind : RefKind) (object : HeapId) :
    Known p (vm.newRef kind object).2 (vm'.newRef kind object).2 (vm.newRef kind object).1
      (vm'.newRef kind object).1 :=
  ⟨(hv.newRef kind object).1, Nat.le_refl _, Nat.le_refl _⟩

theorem Paired.optionalLocal (hv : vm.Paired p vm') (object : Option HeapId) :
    Known p (Vm.optionalLocal object vm).2 (Vm.optionalLocal object vm').2
        (Vm.optionalLocal object vm).1 (Vm.optionalLocal object vm').1 ∧
      (Vm.optionalLocal object vm).2.Paired p (Vm.optionalLocal object vm').2 := by
  cases object with
  | none => exact ⟨⟨p.null, Nat.zero_le _, Nat.zero_le _⟩, hv⟩
  | some id => exact ⟨hv.known_newRef .localRef id, (hv.newRef .localRef id).2⟩

/-- The machines call back with references that stand for each other. -/
theorem Paired.enterCallback (hv : vm.Paired p vm') (c : Callback HeapId) :
    ∃ thread thread' other other',
      Known p (vm.enterCallback c).2 (vm'.enterCallback c).2 thread thread' ∧
      Known p (vm.enterCallback c).2 (vm'.enterCallback c).2 other other' ∧
      (vm.enterCallback c).1 = c.withObjects thread other ∧
      (vm'.enterCallback c).1 = c.withObjects thread' other' ∧
      (vm.enterCallback c).2.Paired p (vm'.enterCallback c).2 := by
  obtain ⟨hthread, hnear⟩ := hv.optionalLocal c.thread?
  obtain ⟨hother, hboth⟩ := hnear.optionalLocal c.other?
  replace hthread := hthread.ages (ages_optionalLocal c.other? _) (ages_optionalLocal c.other? _)
  cases c with
  | vmDeath => exact ⟨_, _, _, _, hthread, hother, rfl, rfl, hboth⟩
  | threadStart id | threadEnd id | classPrepare id | breakpoint id | singleStep id
  | exception id | methodEntry id | methodExit id =>
      have hmarked := hboth.change (f := fun vm =>
        { vm with inCallback := id :: vm.inCallback.filter fun t => t ≠ id }) fun _ _ _ => rfl
      exact ⟨_, _, _, _, ⟨hthread.stands, hthread.le, hthread.le'⟩,
        ⟨hother.stands, hother.le, hother.le'⟩, rfl, rfl, hmarked⟩

/-- The thread of a callback is unmarked in both machines, and what it carried is gone. -/
theorem Paired.leaveCallback (hv : vm.Paired p vm') (c : Callback HeapId)
    {thread thread' other other' : Handle} (ht : p.stands thread thread')
    (ho : p.stands other other') :
    (vm.leaveCallback c (c.withObjects thread other)).Paired p
      (vm'.leaveCallback c (c.withObjects thread' other')) := by
  have hunmarked : ∀ id, ({ vm with inCallback := vm.inCallback.filter (· ≠ id) } : Vm).Paired p
      { vm' with inCallback := vm'.inCallback.filter (· ≠ id) } := fun id =>
    hv.change (f := fun vm => { vm with inCallback := vm.inCallback.filter (· ≠ id) })
      fun _ _ _ => rfl
  cases c with
  | vmDeath => exact hv
  | classPrepare id | exception id => exact ((hunmarked id).eraseRef ht).eraseRef ho
  | threadStart id | threadEnd id | breakpoint id | singleStep id | methodEntry id
  | methodExit id => exact (hunmarked id).eraseRef ht

end Callbacks

end Vm

end DebugAgent
