import DebugAgent.Proofs.Looks
import DebugAgent.Proofs.References

/-!
# What looking at the machine changes

A command that looks at the machine changes next to nothing: it takes and gives back local
references, stops and resumes threads if it may, and the objects that it shows become known to the
client.  `Inspection` lists these changes; a command that only looks makes no others.
-/

namespace DebugAgent

open Relation (ReflTransGen)

namespace Agent

/-- An object becomes known by the next identifier. -/
def enrol (object : HeapId) (a : Agent) : Agent :=
  let (global, vm) := (a.vm.setTagAt object a.tracker.nextId).newRef .globalRef object
  { a with vm, tracker := a.tracker.add global }

end Agent

theorem holdsGlobal_enrol {a : Agent} {h : Handle} {object : HeapId} (hb : a.vm.RefsBounded)
    (hg : a.vm.HoldsGlobal h object) (known : HeapId) :
    (a.enrol known).vm.HoldsGlobal h object := by
  let tagged := a.vm.setTagAt known a.tracker.nextId
  have hbounded : tagged.RefsBounded := hb
  exact ⟨hg.isNull, Vm.get?_newRef_of_some hbounded hg.get? .globalRef⟩

/-- A change of the agent's state by looking at the machine, and by what may be done to threads. -/
inductive Inspection (may : Command.Control → Prop) (a : Agent) : Agent → Prop where
  | glance {vm : Vm} (h : a.vm.Glance vm) : Inspection may a (a.setVm vm)
  | attach (hmay : may .attach) (caller : NativeThread) :
      Inspection may a (a.setVm (a.vm.attach caller).2)
  | halt (hmay : may .stop) {vm : Vm} (h : a.vm.Halts vm) : Inspection may a (a.setVm vm)
  | resume (hmay : may .resume) {vm : Vm} (h : a.vm.Resumes vm) : Inspection may a (a.setVm vm)
  /-- An identifier in use is handed out once more. -/
  | recount {id : ObjectId} {entry : Tracked} (h : a.tracker.entries.get? id = some entry)
      (hgrant : a.vm.grants Capabilities.canTagObjects) :
      Inspection may a
        { a with tracker := a.tracker.setReferences id entry (entry.references + 1) }
  /-- An object whose tag is no identifier in use becomes known. -/
  | enrol {object : HeapId} {tag : Int} (htag : a.vm.tagAt? object = some tag)
      (hnew : 0 < tag → a.tracker.entries.get? tag.toNat = none)
      (hgrant : a.vm.grants Capabilities.canTagObjects) : Inspection may a (a.enrol object)

namespace Command

variable {may : Control → Prop} {α : Type} {a : Agent}

theorem perform_call_ok {x : Call α} {result : α} {vm : Vm}
    (h : x.perform a.vm = (.ok result, vm)) : (call x).perform a = (.ok result, a.setVm vm) := by
  simp [call, Action.mapCause, h]

theorem perform_call_refused {x : Call α} {e : JvmtiError} {vm : Vm}
    (h : x.perform a.vm = (.error (.refused e), vm)) :
    (call x).perform a = (.error (.refused e.toProtocol), a.setVm vm) := by
  simp [call, Action.mapCause, h]

theorem perform_call_broken {x : Call α} {vm : Vm}
    (h : x.perform a.vm = (.error .broken, vm)) :
    (call x).perform a = (.error .broken, a.setVm vm) := by
  simp [call, Action.mapCause, h]

@[simp] theorem perform_withLocals (hs : List Handle) (x : Command α) (a : Agent) :
    (withLocals hs x).perform a =
      ((x.perform a).1, (x.perform a).2.setVm (hs.foldl dropLocal (x.perform a).2.vm)) := rfl

@[simp] theorem perform_withLocal (h : Handle) (x : Command α) (a : Agent) :
    (withLocal h x).perform a =
      ((x.perform a).1, (x.perform a).2.setVm (dropLocal (x.perform a).2.vm h)) := rfl

/-- A new reference is not null. -/
theorem dropLocal_newLocal (vm later : Vm) (object : HeapId) :
    dropLocal later (vm.newLocal object).1 = later.deleteLocalRef (vm.newLocal object).1 := by
  rw [dropLocal, Vm.newLocal, Vm.isNull_newRef]
  rfl

/-! ### The machine seen from a command -/

open DebugAgent.Action

section Machine

-- `S` is what a change of the machine is for the agent
variable {R : Vm → Vm → Prop} {S : Agent → Agent → Prop}

theorem makes_native (hS : ∀ {a : Agent} {vm}, R a.vm vm → S a (a.setVm vm))
    {x : Action Vm ProtocolError α} (hx : x.Makes R) : (native x).Makes S :=
  fun a => (hx a.vm).lift a.setVm fun vm _ h => hS (a := a.setVm vm) h

theorem makes_call (hS : ∀ {a : Agent} {vm}, R a.vm vm → S a (a.setVm vm)) {x : Call α}
    (hx : x.Makes R) : (call x).Makes S :=
  makes_native hS (makes_mapCause JvmtiError.toProtocol hx)

theorem makes_tryCall (hS : ∀ {a : Agent} {vm}, R a.vm vm → S a (a.setVm vm)) {x : Call α}
    (hx : x.Makes R) : (tryCall x).Makes S :=
  makes_native hS (makes_attempt hx)

end Machine

theorem inspects_of_glances {vm : Vm} (h : ReflTransGen Vm.Glance a.vm vm) :
    ReflTransGen (Inspection may) a (a.setVm vm) :=
  h.lift a.setVm fun vm _ h => .glance (a := a.setVm vm) h

theorem makes_touch {f : Vm → α × Vm} (h : ∀ vm, ReflTransGen Vm.Glance vm (f vm).2) :
    (touch f).Makes (Inspection may) :=
  makes_update fun a => inspects_of_glances (h a.vm)

theorem makes_withLocals (hs : List Handle) {x : Command α} (hx : x.Makes (Inspection may)) :
    (withLocals hs x).Makes (Inspection may) :=
  makes_ensuring hx fun a => inspects_of_glances (Vm.glance_dropLocals hs a.vm)

/-- The native thread that issues a command is attached first. -/
theorem makes_attach (hmay : may .attach) (caller : NativeThread) :
    (attach caller).Makes (Inspection may) :=
  makes_bind (makes_look _) fun _ => makes_bind (makes_guard _ _) fun _ =>
    makes_change fun _ => .single (.attach hmay caller)

end Command

namespace Vm

variable {vm : Vm} {h : Handle} {object : HeapId}

/-! ### Tags -/

theorem demand_ok {capability : Capabilities → Bool} (h : vm.grants capability) :
    vm.demand capability = .ok () := by
  simp [demand, h]

theorem getTag_ok (hgrant : vm.grants Capabilities.canTagObjects) (ht : vm.target? h = some object)
    {tag : Int} (htag : vm.tagAt? object = some tag) : (getTag h).perform vm = (.ok tag, vm) := by
  obtain ⟨target, hobject, rfl⟩ := Option.map_eq_some_iff.mp htag
  simp [getTag, Action.perform_bind, demand_ok hgrant, ht, hobject, Except.map]

theorem setTag_ok (hgrant : vm.grants Capabilities.canTagObjects) (ht : vm.target? h = some object)
    {old : Int} (htag : vm.tagAt? object = some old) (tag : Int) :
    (setTag h tag).perform vm = (.ok (), vm.setTagAt object tag) := by
  obtain ⟨target, hobject, rfl⟩ := Option.map_eq_some_iff.mp htag
  simp [setTag, Action.perform_bind, demand_ok hgrant, ht, hobject]

/-- A tag can be read wherever tagging is granted and the reference is good. -/
theorem getTag_cases (vm : Vm) (h : Handle) :
    (∃ stop, (getTag h).perform vm = (.error stop, vm)) ∨
      ∃ object tag, vm.grants Capabilities.canTagObjects ∧ vm.target? h = some object ∧
        vm.tagAt? object = some tag := by
  cases hgrant : vm.grants Capabilities.canTagObjects with
  | false =>
      refine .inl ⟨.refused .mustPossessCapability, ?_⟩
      simp [getTag, Action.perform_bind, demand, hgrant]
  | true =>
      cases ht : vm.target? h with
      | none =>
          refine .inl ⟨.refused .invalidObject, ?_⟩
          simp [getTag, Action.perform_bind, demand_ok hgrant, ht]
      | some object =>
          cases htag : vm.tagAt? object with
          | some tag => exact .inr ⟨object, tag, rfl, rfl, htag⟩
          | none =>
              have hobject : vm.heap[object]? = none := Option.map_eq_none_iff.mp htag
              refine .inl ⟨.broken, ?_⟩
              simp [getTag, Action.perform_bind, demand_ok hgrant, ht, hobject,
                Except.map]

end Vm

open Command

/-! ### Tracking an object -/

namespace Tracking

section TrackNew

variable {a : Agent} {h : Handle} {object : HeapId}

theorem perform_trackNew_null (hn : h.isNull = true) : (trackNew h).perform a = (.ok 0, a) := by
  simp [trackNew, hn]

/-- An object whose tag cannot be read is not tracked. -/
theorem perform_trackNew_stopped (hn : h.isNull = false) {stop : Stop JvmtiError}
    (hstop : (Vm.getTag h).perform a.vm = (.error stop, a.vm)) :
    ∃ stop, (trackNew h).perform a = (.error stop, a) := by
  cases stop with
  | refused cause =>
      refine ⟨.refused cause.toProtocol, ?_⟩
      simp [trackNew, hn, Action.perform_bind, perform_call_refused hstop, Agent.setVm]
  | broken =>
      refine ⟨.broken, ?_⟩
      simp [trackNew, hn, Action.perform_bind, perform_call_broken hstop, Agent.setVm]

/-- A tag that is an identifier in use is handed out again. -/
theorem perform_trackNew_known (hgrant : a.vm.grants Capabilities.canTagObjects)
    (ht : a.vm.target? h = some object) {id : ObjectId} (htag : a.vm.tagAt? object = some ↑id)
    (hid : 0 < id) {entry : Tracked} (hentry : a.tracker.entries.get? id = some entry) :
    (trackNew h).perform a =
      (.ok id, { a with tracker := a.tracker.setReferences id entry (entry.references + 1) }) := by
  have hget := perform_call_ok (Vm.getTag_ok hgrant ht htag)
  simp [trackNew, Vm.isNull_eq_false_of_target ht, Action.perform_bind, hget, hid, hentry,
    Agent.setVm, setTracker, Except.map]

/-- Any other object gets the next identifier. -/
theorem perform_trackNew_new (hgrant : a.vm.grants Capabilities.canTagObjects)
    (ht : a.vm.target? h = some object) {tag : Int}
    (htag : a.vm.tagAt? object = some tag)
    (hnew : 0 < tag → a.tracker.entries.get? tag.toNat = none) :
    (trackNew h).perform a = (.ok a.tracker.nextId, a.enrol object) := by
  have hget := perform_call_ok (Vm.getTag_ok hgrant ht htag)
  have hset := perform_call_ok (Vm.setTag_ok hgrant ht htag (a.tracker.nextId : Int))
  have hglobal : (a.vm.setTagAt object a.tracker.nextId).newGlobalRef h =
      (a.vm.setTagAt object a.tracker.nextId).newRef .globalRef object :=
    Vm.newGlobalRef_of_target ht
  have hlookup : (if 0 < tag then a.tracker.entries.get? tag.toNat else none) = none := by
    split
    · exact hnew ‹_›
    · rfl
  simp [trackNew, Vm.isNull_eq_false_of_target ht, Action.perform_bind, hget, hlookup, hset,
    Agent.setVm, setTracker, touch, hglobal, requireRef, Agent.enrol, Except.map]

/-- An object whose tag can be read gets an identifier in use or the next one. -/
theorem perform_trackNew_tagged (hgrant : a.vm.grants Capabilities.canTagObjects)
    (ht : a.vm.target? h = some object) {tag : Int} (htag : a.vm.tagAt? object = some tag) :
    (∃ id entry, a.tracker.entries.get? id = some entry ∧ (trackNew h).perform a =
        (.ok id, { a with tracker := a.tracker.setReferences id entry (entry.references + 1) })) ∨
      (0 < tag → a.tracker.entries.get? tag.toNat = none) ∧
        (trackNew h).perform a = (.ok a.tracker.nextId, a.enrol object) := by
  by_cases hnew : 0 < tag → a.tracker.entries.get? tag.toNat = none
  · exact .inr ⟨hnew, perform_trackNew_new hgrant ht htag hnew⟩
  · obtain ⟨hpos, hne⟩ := Classical.not_imp.mp hnew
    obtain ⟨entry, hentry⟩ := Option.ne_none_iff_exists'.mp hne
    have hcast : (tag.toNat : Int) = tag := Int.toNat_of_nonneg (Int.le_of_lt hpos)
    have hid : 0 < tag.toNat := Int.pos_iff_toNat_pos.mp hpos
    rw [← hcast] at htag
    exact .inl ⟨tag.toNat, entry, hentry, perform_trackNew_known hgrant ht htag hid hentry⟩

/-- Tracking fails and changes nothing, or it finds nothing to track, or it hands out an identifier
in use or the next one. -/
theorem trackNew_cases (a : Agent) (h : Handle) :
    (∃ stop, (trackNew h).perform a = (.error stop, a)) ∨ (trackNew h).perform a = (.ok 0, a) ∨
      ∃ object tag, a.vm.tagAt? object = some tag ∧
        ((∃ id entry, a.tracker.entries.get? id = some entry ∧ (trackNew h).perform a =
            (.ok id, { a with
              tracker := a.tracker.setReferences id entry (entry.references + 1) })) ∨
          (0 < tag → a.tracker.entries.get? tag.toNat = none) ∧
            (trackNew h).perform a = (.ok a.tracker.nextId, a.enrol object)) := by
  cases hn : h.isNull with
  | true => exact .inr (.inl (perform_trackNew_null hn))
  | false =>
      rcases Vm.getTag_cases a.vm h with ⟨stop, hstop⟩ | ⟨object, tag, hgrant, ht, htag⟩
      · exact .inl (perform_trackNew_stopped hn hstop)
      · exact .inr (.inr ⟨object, tag, htag, perform_trackNew_tagged hgrant ht htag⟩)

end TrackNew

/-- Where tagging is not granted, nothing can become known. -/
theorem perform_trackNew_denied {a : Agent} (h : Handle)
    (hdenied : ¬ a.vm.grants Capabilities.canTagObjects) : ((trackNew h).perform a).2 = a := by
  cases hn : h.isNull with
  | true => rw [perform_trackNew_null hn]
  | false =>
      rcases Vm.getTag_cases a.vm h with ⟨stop, hstop⟩ | ⟨object, tag, hgrant, -, -⟩
      · obtain ⟨stop, heq⟩ := perform_trackNew_stopped hn hstop
        rw [heq]
      · exact absurd hgrant hdenied

theorem makes_trackNew {may : Control → Prop} (h : Handle) :
    (trackNew h).Makes (Inspection may) := by
  intro a
  by_cases hgrant : a.vm.grants Capabilities.canTagObjects
  · rcases trackNew_cases a h with ⟨stop, heq⟩ | heq |
      ⟨object, tag, htag, ⟨id, entry, hentry, heq⟩ | ⟨hnew, heq⟩⟩
    · rw [heq]
    · rw [heq]
    · rw [heq]
      exact .single (.recount hentry hgrant)
    · rw [heq]
      exact .single (.enrol htag hnew hgrant)
  · rw [perform_trackNew_denied h hgrant]

end Tracking

/-! ### Commands that look -/

namespace Command

open DebugAgent.Action

variable {may : Control → Prop} {α : Type}

theorem makes_clearing {x : Command α} (hx : x.Makes (Inspection may)) :
    (Reading.clearing x).Makes (Inspection may) :=
  makes_bind hx fun _ =>
    makes_bind (makes_change fun _ => .single (.glance .clearException)) fun _ => makes_pure _

theorem Opens.makes {x : Command α} {owned : α → List Handle} (h : Opens x owned) :
    x.Makes (Inspection may) := by
  cases h with
  | acquire id =>
      apply makes_bind (makes_look _)
      intro tracker
      split
      · exact makes_touch (Vm.glance_newLocalRef _)
      · exact makes_pure _
  | another h => exact makes_touch (Vm.glance_newLocalRef h)
  | objectClass h => exact makes_native .glance (Vm.makes_objectClassRef h)
  | superclass cls => exact makes_touch (Vm.glance_superclassRef cls)
  | declaringClass method => exact makes_call .glance (Vm.makes_methodDeclaringClass method)
  | loadedClasses => exact makes_call .glance Vm.makes_loadedClasses
  | interfaces cls => exact makes_call .glance (Vm.makes_implementedInterfaces cls)
  | allThreads => exact makes_call .glance Vm.makes_allThreads
  | threadGroups => exact makes_call .glance Vm.makes_topThreadGroups
  | currentThread caller => exact makes_tryCall .glance (Vm.makes_currentThread caller)
  | threadInfo thread => exact makes_call .glance (Vm.makes_threadInfo thread)
  | localVariable thread depth slot kind =>
      exact makes_call .glance (Vm.makes_getLocal thread depth slot kind)
  | receiver thread => exact makes_tryCall .glance (Vm.makes_getLocal thread 0 0 .object)
  | staticField cls field kind =>
      exact makes_clearing (makes_touch (Vm.glance_staticField cls field kind))
  | instanceField object field kind =>
      exact makes_clearing (makes_native .glance (Vm.makes_instanceField object field kind))
  | arrayElement array index =>
      exact makes_clearing (makes_native .glance (Vm.makes_arrayElement array index))

/-- A command that only looks changes the state by inspections. -/
theorem Looks.makes {x : Command α} (h : Looks may x) : x.Makes (Inspection may) := by
  induction h with
  | pure a => exact makes_pure a
  | look f => exact makes_look f
  | inspect f => exact makes_inspect f
  | bind _ _ ihx ihf => exact makes_bind ihx ihf
  | bracket hx _ hg ih =>
      apply makes_bind hx.makes
      intro a
      rw [hg]
      exact makes_withLocals _ (ih a)
  | attach hmay caller => exact makes_attach hmay caller
  | trackNew h => exact Tracking.makes_trackNew h
  | suspendThread hmay caller h => exact makes_call (.halt hmay) (Vm.makes_suspendThread caller h)
  | suspendThreads hmay caller hs =>
      exact makes_call (.halt hmay) (Vm.makes_suspendThreads caller hs)
  | resumeThread hmay h => exact makes_call (.resume hmay) (Vm.makes_resumeThread h)
  | resumeThreads hmay hs => exact makes_call (.resume hmay) (Vm.makes_resumeThreads hs)
  | arrayLength array => exact makes_native .glance (Vm.makes_arrayLength array)
  | stringChars h => exact makes_native .glance (Vm.makes_stringChars h)
  | arrayRegion array kind first length =>
      exact makes_clearing (makes_native .glance (Vm.makes_arrayRegion array kind first length))

/-- Inspections leave the agent's books alone, except for the identifiers. -/
theorem leaves_of_inspections {a b : Agent} (h : ReflTransGen (Inspection may) a b) :
    b.requests = a.requests ∧ b.session = a.session ∧ b.config = a.config := by
  induction h with
  | refl => exact ⟨rfl, rfl, rfl⟩
  | tail _ hlast ih => cases hlast <;> exact ih

/-- Neither the registered requests nor the session are affected by looking. -/
theorem Looks.leaves {x : Command α} (h : Looks Control.Any x) (a : Agent) :
    (x.perform a).2.requests = a.requests ∧ (x.perform a).2.session = a.session := by
  obtain ⟨hrequests, hsession, -⟩ := leaves_of_inspections (h.makes a)
  exact ⟨hrequests, hsession⟩

end Command

end DebugAgent
