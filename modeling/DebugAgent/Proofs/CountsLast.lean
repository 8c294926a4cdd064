import DebugAgent.Proofs.Disposal

/-!
# Commands that count last

An identifier is counted as soon as it has been found for an object.  Most commands have got all that
they need by then, so where one of them fails, it has counted nothing.  To list the classes or the
threads fails only where tagging is not granted, and there nothing can be counted.  Setting a request
undoes what it cannot complete, clearing one fails only if there is none, and giving identifiers back
never fails.  So of the commands that count, only those are left out that answer with a list and may
find one of its members wanting (`ClientCommand.lists`).
-/

namespace DebugAgent

open DebugAgent.Action Command Tracking
open Relation (ReflTransGen)

variable {may : Control → Prop} {α β : Type} {a b : Agent} {h : Handle}

/-- Where the command fails, it has counted nothing. -/
def CountsLast (x : Command α) : Prop :=
  ∀ a stop b, x.perform a = (.error stop, b) → b.tracker = a.tracker

namespace CountsLast

theorem keeps {x : Command α} (hx : KeepsIds x) : CountsLast x := by
  intro a stop b hfails
  have htracker := hx a
  rwa [hfails] at htracker

/-- What comes first counts nothing. -/
theorem after {x : Command α} {f : α → Command β} (hx : KeepsIds x) (hf : ∀ r, CountsLast (f r)) :
    CountsLast (x >>= f) := by
  intro a stop b hfails
  have htracker := hx a
  rcases perform_bind_error hfails with hfirst | ⟨r, near, hfirst, hlast⟩
  · rwa [hfirst] at htracker
  · rw [hfirst] at htracker
    exact (hf r near stop b hlast).trans htracker

/-- What comes last cannot fail. -/
theorem returning {x : Command α} (hx : CountsLast x) (f : α → β) :
    CountsLast (x >>= fun r => pure (f r)) := by
  intro a stop b hfails
  rcases perform_bind_error hfails with hfirst | ⟨r, near, -, hlast⟩
  · exact hx a stop b hfirst
  · cases hlast

theorem map (f : α → β) {x : Command α} (hx : CountsLast x) : CountsLast (f <$> x) := by
  rw [map_eq_pure_bind]
  exact hx.returning f

theorem withLocals (hs : List Handle) {x : Command α} (hx : CountsLast x) :
    CountsLast (Command.withLocals hs x) := by
  intro a stop b hfails
  rw [perform_withLocals] at hfails
  obtain ⟨hstop, rfl⟩ := Prod.mk.inj hfails
  have hinner : x.perform a = (.error stop, (x.perform a).2) := Prod.ext hstop rfl
  exact hx a stop (x.perform a).2 hinner

theorem ite {c : Prop} [Decidable c] {x y : Command α} (hx : CountsLast x) (hy : CountsLast y) :
    CountsLast (if c then x else y) := by
  split
  · exact hx
  · exact hy

theorem withRef (id : ObjectId) (cause : ProtocolError) {x : Handle → Command α}
    (hx : ∀ h, CountsLast (x h)) : CountsLast (Tracking.withRef id cause x) :=
  after (keepsIds_acquire id) fun h => withLocals [h] <| after (keepsIds_guard _ _) fun _ => hx h

theorem withThread (id : ObjectId) {x : Handle → Command α} (hx : ∀ h, CountsLast (x h)) :
    CountsLast (Tracking.withThread id x) :=
  after (keepsIds_acquire id) fun h => withLocals [h] <|
    after (keepsIds_look _) fun _ => after (keepsIds_guard _ _) fun _ => hx h

theorem trackNew (h : Handle) : CountsLast (Tracking.trackNew h) := by
  intro a stop b hfails
  rcases trackNew_cases a h with ⟨_, heq⟩ | heq | ⟨_, _, _, ⟨_, _, _, heq⟩ | ⟨_, heq⟩⟩
  · cases heq.symm.trans hfails
    rfl
  · cases heq.symm.trans hfails
  · cases heq.symm.trans hfails
  · cases heq.symm.trans hfails

theorem trackObject (h : Handle) (declared : TypeTag) :
    CountsLast (Tracking.trackObject h declared) := by
  refine ite (keeps (keepsIds_pure _)) (after (keepsIds_native _) fun cls => withLocals [cls] ?_)
  refine after (keepsIds_guard _ _) fun _ => after (keepsIds_inspect _) fun _ => ?_
  exact (trackNew h).returning _

theorem trackClass (h : Handle) : CountsLast (Tracking.trackClass h) := by
  refine after (keepsIds_guard _ _) fun _ => after (keepsIds_inspect _) fun _ => ?_
  exact after (keepsIds_inspect _) fun _ => (trackNew h).returning _

end CountsLast

namespace Reading

theorem countsLast_wrap (tag : TypeTag) (raw : RawValue) : CountsLast (wrap tag raw) := by
  cases raw with
  | primitive v => exact .keeps (keepsIds_inspect _)
  | object h => exact .withLocals [h] ((CountsLast.trackObject h tag).returning _)

theorem countsLast_readField (owner : FieldOwner) (field : FieldId) (signature : String) :
    CountsLast (readField owner field signature) := by
  refine .after (keepsIds_inspect _) fun tag => .after (keepsIds_inspect _) fun kind => ?_
  cases owner with
  | inClass cls => exact .after (keepsIds_clearing (keepsIds_touch _)) (countsLast_wrap tag)
  | inObject object => exact .after (keepsIds_clearing (keepsIds_native _)) (countsLast_wrap tag)

theorem countsLast_readElement (array : Handle) (tag : TypeTag) (index : Int) :
    CountsLast (readElement array tag index) :=
  .after (keepsIds_clearing (keepsIds_native _)) fun _ => countsLast_wrap tag _

theorem countsLast_readLocal (thread : Handle) (depth slot : Int) (signature : String) :
    CountsLast (readLocal thread depth slot signature) :=
  .after (keepsIds_inspect _) fun tag => .after (keepsIds_inspect _) fun _ =>
    .after (keepsIds_call _) fun _ => countsLast_wrap tag _

end Reading

theorem Positions.countsLast_locate (method : MethodId) (index : CodeIndex) :
    CountsLast (locate method index) :=
  .after (keepsIds_call _) fun cls => .withLocals [cls] <|
    .after (keepsIds_guard _ _) fun _ => (CountsLast.trackClass cls).returning _

/-! ### Listing what is there -/

/-- Tagging is granted, and each of the references refers to an object of a certain kind. -/
structure Trackable (kind : Body → Prop) (hs : List Handle) (a : Agent) : Prop where
  refs : a.vm.RefsBounded
  granted : a.vm.grants Capabilities.canTagObjects
  there : ∀ h ∈ hs, ∃ object target,
    a.vm.target? h = some object ∧ a.vm.heap[object]? = some target ∧ kind target.body

namespace Trackable

variable {kind : Body → Prop} {hs : List Handle}

theorem enrol (ht : Trackable kind hs a) (known : HeapId) : Trackable kind hs (a.enrol known) where
  refs := (Vm.ages_newRef _ .globalRef known).bounded ht.refs
  granted := ht.granted
  there := by
    intro h hmem
    let tagged := a.vm.setTagAt known a.tracker.nextId
    have hbounded : tagged.RefsBounded := ht.refs
    obtain ⟨object, target, htarget, hobject, hkind⟩ := ht.there h hmem
    have htagged : tagged.target? h = some object := htarget
    have hlater := Vm.target?_newRef_of_some hbounded htagged .globalRef known
    have hheap : (a.enrol known).vm.heap[object]? =
        if known = object then a.vm.heap[object]?.map fun o => { o with tag := a.tracker.nextId }
        else a.vm.heap[object]? := Vm.heap_setTagAt a.vm known a.tracker.nextId object
    by_cases hsame : known = object
    · exact ⟨object, { target with tag := a.tracker.nextId }, hlater,
        by rw [hheap, if_pos hsame, hobject]; rfl, hkind⟩
    · exact ⟨object, target, hlater, by rw [hheap, if_neg hsame, hobject], hkind⟩

/-- Tracking one of the objects comes to a result, and they can all be tracked after it. -/
theorem trackNew (ht : Trackable kind hs a) (hmem : h ∈ hs) :
    ∃ id b, (trackNew h).perform a = (.ok id, b) ∧ Trackable kind hs b := by
  obtain ⟨object, target, htarget, hobject, -⟩ := ht.there h hmem
  have htag : a.vm.tagAt? object = some target.tag := by simp [Vm.tagAt?, hobject]
  rcases perform_trackNew_tagged ht.granted htarget htag with
    ⟨id, entry, -, heq⟩ | ⟨-, heq⟩
  · exact ⟨id, _, heq, ht.refs, ht.granted, ht.there⟩
  · exact ⟨_, _, heq, ht.enrol object⟩

/-- Where tagging is granted, what has been listed can be tracked. -/
theorem of_newLocals (hb : a.vm.RefsBounded) (hgrant : a.vm.grants Capabilities.canTagObjects)
    {ids : List HeapId}
    (hids : ∀ id ∈ ids, ∃ target, a.vm.heap[id]? = some target ∧ kind target.body) :
    Trackable kind (Vm.newLocals ids a.vm).1 (a.setVm (Vm.newLocals ids a.vm).2) := by
  obtain ⟨hheap, hcapabilities, -⟩ := Vm.leaves_of_glances (Vm.glance_newLocals ids a.vm)
  refine ⟨(Vm.ages_newLocals ids a.vm).bounded hb, ?_, fun h hmem => ?_⟩
  · exact (Vm.grants_congr hcapabilities _).trans hgrant
  · obtain ⟨id, hid, htarget⟩ := (Vm.target?_newLocals hb ids).2 h hmem
    obtain ⟨target, hobject, hkind⟩ := hids id hid
    exact ⟨id, target, htarget, hheap ▸ hobject, hkind⟩

end Trackable

/-- What a class holds. -/
def Body.isClass (body : Body) : Prop := ∃ cls, body = .classObject cls

theorem Vm.classOf_of_isClass {vm : Vm} {object : HeapId} {target : HeapObject}
    (ht : vm.target? h = some object) (hobject : vm.heap[object]? = some target)
    (hclass : target.body.isClass) : ∃ body, vm.classOf h = .ok body := by
  obtain ⟨cls, tag, body⟩ := target
  obtain ⟨found, rfl⟩ := hclass
  exact ⟨found, by simp [classOf, ht, classAt?, hobject]⟩

theorem Command.perform_ask_ok {query : Vm → Except JvmtiError α} {r : α}
    (hquery : query a.vm = .ok r) : (ask query).perform a = (.ok r, a) := by
  simp [ask, hquery]

namespace Trackable

variable {hs : List Handle}

theorem classOf (ht : Trackable Body.isClass hs a) (hmem : h ∈ hs) :
    ∃ body, a.vm.classOf h = .ok body := by
  obtain ⟨object, target, htarget, hobject, hkind⟩ := ht.there h hmem
  exact Vm.classOf_of_isClass htarget hobject hkind

theorem trackClass (ht : Trackable Body.isClass hs a) (hmem : h ∈ hs) :
    ∃ type b, (trackClass h).perform a = (.ok type, b) ∧ Trackable Body.isClass hs b := by
  obtain ⟨body, hbody⟩ := ht.classOf hmem
  obtain ⟨object, -, htarget, -⟩ := ht.there h hmem
  have hvalid : (requireRef h .invalidClass).perform a = (.ok (), a) := by
    rw [requireRef, Vm.isNull_eq_false_of_target htarget]
    rfl
  have harray : a.vm.isArrayClass h = .ok body.isArray := by simp [Vm.isArrayClass, hbody, Except.map]
  have hinterface : a.vm.isInterface h = .ok body.isInterface := by
    simp [Vm.isInterface, hbody, Except.map]
  obtain ⟨id, b, htrack, hb⟩ := ht.trackNew hmem
  rw [Tracking.trackClass, perform_bind_of_ok hvalid, perform_bind_of_ok (perform_ask_ok harray),
    perform_bind_of_ok (perform_ask_ok hinterface), perform_bind_of_ok htrack]
  exact ⟨_, b, rfl, hb⟩

theorem classRecord? (ht : Trackable Body.isClass hs a) (wanted : String → Bool) (hmem : h ∈ hs) :
    ∃ record b, (Machine.classRecord? wanted h).perform a = (.ok record, b) ∧
      Trackable Body.isClass hs b := by
  obtain ⟨body, hbody⟩ := ht.classOf hmem
  have hsignature : a.vm.classSignature h = .ok (body.signature, body.genericSignature) := by
    simp [Vm.classSignature, hbody]
  rw [Machine.classRecord?, perform_bind_of_ok (perform_ask_ok hsignature)]
  dsimp only
  split
  · obtain ⟨type, near, htype, hnear⟩ := ht.trackClass hmem
    obtain ⟨later, hlater⟩ := hnear.classOf hmem
    have hstatus : near.vm.classStatus h = .ok later.status := by
      simp [Vm.classStatus, hlater, Except.map]
    rw [perform_bind_of_ok htype, perform_bind_of_ok (perform_ask_ok hstatus)]
    exact ⟨_, near, rfl, hnear⟩
  · exact ⟨none, a, rfl, ht⟩

end Trackable

/-- An inspection where tagging is not granted leaves the identifiers alone. -/
theorem tracker_of_denied (ho : Orderly a) (hdenied : ¬ a.vm.grants Capabilities.canTagObjects)
    (h : ReflTransGen (Inspection may) a b) :
    b.tracker = a.tracker ∧ ¬ b.vm.grants Capabilities.canTagObjects := by
  induction h with
  | refl => exact ⟨rfl, hdenied⟩
  | @tail mid last hinspections hlast ih =>
      obtain ⟨htracker, hdenied⟩ := ih
      have hb := (ho.evolves (evolves_of_inspections ho hinspections)).refs
      have hstill : ¬ last.vm.grants Capabilities.canTagObjects := by
        rcases hlast.conserves hb with ⟨hstep, -⟩ | ⟨object, rfl⟩
        · rwa [Vm.grants_congr hstep.capabilities]
        · exact hdenied
      refine ⟨?_, hstill⟩
      cases hlast with
      | glance | attach | halt | resume => exact htracker
      | recount _ hgrant => exact absurd hgrant hdenied
      | enrol _ _ hgrant => exact absurd hgrant hdenied

/-- A command that looks fails without effect if it comes to a result wherever tagging is granted. -/
theorem Command.Looks.unwinds_of_granted {x : Command α} (hx : Looks Control.Any x)
    (hgranted : ∀ a, Orderly a → a.vm.grants Capabilities.canTagObjects →
      ∃ r b, x.perform a = (.ok r, b)) : Unwinds x := by
  intro a ho stop b hfails
  have hdenied : ¬ a.vm.grants Capabilities.canTagObjects := by
    intro hgrant
    obtain ⟨r, c, hperform⟩ := hgranted a ho hgrant
    cases hfails.symm.trans hperform
  have hunmoved := hx.unmoved ho (tracker_of_denied ho hdenied (hx.makes a)).1
  rwa [hfails] at hunmoved

/-- A command that looks and counts last fails without effect. -/
theorem CountsLast.unwinds {x : Command α} (hlast : CountsLast x) (hx : Looks Control.Any x) :
    Unwinds x := by
  intro a ho stop b hfails
  have hunmoved := hx.unmoved ho
  rw [hfails] at hunmoved
  exact hunmoved (hlast a stop b hfails)

namespace Command.Machine

theorem unwinds_classesWhere (wanted : String → Bool) : Unwinds (classesWhere wanted) := by
  refine (looks_classesWhere wanted).unwinds_of_granted fun a ho hgrant => ?_
  have hclasses : ∀ id ∈ a.vm.classIds,
      ∃ target, a.vm.heap[id]? = some target ∧ target.body.isClass := by
    intro id hid
    obtain ⟨body, hbody⟩ := Option.isSome_iff_exists.mp (List.mem_filter.mp hid).2
    rw [Vm.classAt?] at hbody
    split at hbody
    · rename_i found heq
      exact ⟨_, heq, found, rfl⟩
    · cases hbody
  obtain ⟨records, b, hperform, -⟩ := perform_mapM_ok
    (fun _ hmem c hc => Trackable.classRecord? hc wanted hmem)
    (Trackable.of_newLocals ho.refs hgrant hclasses)
  have hlisted : (call Vm.loadedClasses).perform a =
      (.ok (Vm.newLocals a.vm.classIds a.vm).1, a.setVm (Vm.newLocals a.vm.classIds a.vm).2) := rfl
  rw [classesWhere, perform_bind_of_ok hlisted, perform_withLocals, perform_bind_of_ok hperform]
  exact ⟨_, _, rfl⟩

theorem unwinds_allThreads : Unwinds allThreads := by
  refine looks_allThreads.unwinds_of_granted fun a ho hgrant => ?_
  have hthreads : ∀ id ∈ a.vm.liveThreadIds, ∃ target, a.vm.heap[id]? = some target ∧ True := by
    intro id hid
    have hlt := List.mem_range.mp (List.mem_filter.mp hid).1
    exact ⟨_, Array.getElem?_eq_getElem hlt, trivial⟩
  have htrackable : Trackable (fun _ => True) _ _ :=
    .of_newLocals ho.refs hgrant hthreads
  obtain ⟨ids, b, hperform, -⟩ := perform_mapM_ok
    (fun _ hmem c hc => Trackable.trackNew hc hmem) htrackable
  have hlisted : (call Vm.allThreads).perform a = (.ok (Vm.newLocals a.vm.liveThreadIds a.vm).1,
      a.setVm (Vm.newLocals a.vm.liveThreadIds a.vm).2) := rfl
  rw [allThreads, perform_bind_of_ok hlisted, perform_withLocals, hperform]
  exact ⟨_, _, rfl⟩

/-- There is one group at the top. -/
theorem countsLast_topLevelThreadGroups : CountsLast topLevelThreadGroups := by
  intro a stop b hfails
  let group := a.vm.newLocal Vm.systemGroup
  have hlisted : (call Vm.topThreadGroups).perform a = (.ok [group.1], a.setVm group.2) := rfl
  have hlast : CountsLast ([group.1].mapM trackNew) := by
    rw [List.mapM_cons, List.mapM_nil]
    exact (CountsLast.trackNew group.1).returning fun id => [id]
  rw [topLevelThreadGroups, perform_bind_of_ok hlisted] at hfails
  exact hlast.withLocals [group.1] (a.setVm group.2) stop b hfails

end Command.Machine

/-! ### Commands that answer with one object or a list of values -/

namespace Command

theorem Class.countsLast_value (cls : Handle) (field : FieldId) : CountsLast (value cls field) :=
  .after (keepsIds_inspect _) fun name => .after (keepsIds_inspect _) fun _ =>
    .after (keepsIds_guard _ _) fun _ => Reading.countsLast_readField _ field name.2

namespace Object

theorem countsLast_withClassOf (object : Handle) {x : Handle → Command α}
    (hx : ∀ h, CountsLast (x h)) : CountsLast (withClassOf object x) :=
  .after (keepsIds_native _) fun cls => .withLocals [cls] <|
    .after (keepsIds_guard _ _) fun _ => hx cls

theorem countsLast_valueFrom (object : Handle) (field : FieldId) (depth : Nat) (cls : Handle) :
    CountsLast (valueFrom object field depth cls) := by
  induction depth generalizing cls with
  | zero => exact .withLocals [cls] (.keeps (keepsIds_refuse _))
  | succ depth ih =>
      refine .withLocals [cls] (.after (keepsIds_guard _ _) fun _ => ?_)
      refine .after (keepsIds_look _) fun name? => ?_
      cases name? with
      | ok name =>
          exact .after (keepsIds_inspect _) fun _ => Reading.countsLast_readField _ field name.2
      | error _ => exact .after (keepsIds_touch _) ih

end Object

namespace Frame

theorem countsLast_value (thread : Handle) (depth : Int) (index : CodeIndex)
    (entries : List LocalVariable) (slot : Int) :
    CountsLast (value thread depth index entries slot) :=
  .after (keepsIds_require _ _) fun entry =>
    Reading.countsLast_readLocal thread depth slot entry.signature

theorem countsLast_thisObject (thread : ObjectId) (frame : FrameId) :
    CountsLast (thisObject thread frame) := by
  refine .withThread thread fun _ => .after (keepsIds_inspect _) fun _ => ?_
  refine .after (keepsIds_inspect _) fun _ => .after (keepsIds_inspect _) fun _ => ?_
  refine .ite (.keeps (keepsIds_pure _)) (.after (keepsIds_call _) fun raw => ?_)
  cases raw with
  | primitive v => exact .keeps (keepsIds_refuse _)
  | object h => exact .withLocals [h] ((CountsLast.trackObject h .object).returning _)

end Frame

theorem Thread.countsLast_group (id : ObjectId) : CountsLast (group id) :=
  .withThread id fun _ => .after (keepsIds_call _) fun info => .withLocals _ (.trackNew info.group)

end Command

/-! ### Every command but those that answer with a list -/

/-- The command answers with a list whose members it looks at one after another, and it may fail at
each of them. -/
def ClientCommand.lists : ClientCommand → Bool
  | .staticValues _ _ | .interfaces _ | .objectValues _ _ | .arrayValues _ _ _ | .frames _ _ _
  | .frameValues _ _ _ => true
  | _ => false

namespace Command

variable {command : ClientCommand}

theorem unwinds_clear (kindCode : Nat) (id : RequestId) :
    Unwinds (EventRequest.clear kindCode id) := by
  refine unwinds_after (fun a ho => (looks_ofExcept _).unmoved ho (keepsIds_inspect _ a)) ?_
  intro kind a ho stop b hfails
  rcases clear_cases ho kind id with ⟨_, -, hclear⟩ | ⟨_, _, -, -, -, -, hclear⟩
  · cases hfails.symm.trans hclear
    exact .refl a
  · cases hfails.symm.trans hclear

theorem unwinds_done {x : Command Unit} (hx : Unwinds x) : Unwinds (done x) := by
  have hmap := unwinds_map (fun _ => Reply.done) hx
  rwa [map_eq_pure_bind] at hmap

/-- Any other command fails without effect. -/
theorem unwinds_ofClient (caller : NativeThread) (hlists : command.lists = false) :
    Unwinds (ofClient caller command) := by
  have hone : ∀ {x : Command Reply}, CountsLast x → Looks Control.Any x → Unwinds x :=
    CountsLast.unwinds
  cases command with
  | staticValues | interfaces | objectValues | arrayValues | frames | frameValues => cases hlists
  | allClasses => exact unwinds_map _ (Machine.unwinds_classesWhere _)
  | classesBySignature signature => exact unwinds_map _ (Machine.unwinds_classesWhere _)
  | allThreads => exact unwinds_map _ Machine.unwinds_allThreads
  | topLevelThreadGroups =>
      exact hone (Machine.countsLast_topLevelThreadGroups.map _)
        (looks_map _ Machine.looks_topLevelThreadGroups)
  | referenceType object =>
      exact hone (.map _ (.withRef _ _ fun h => Object.countsLast_withClassOf h .trackClass))
        (looks_map _ (Object.looks_referenceType object))
  | threadGroup thread =>
      exact hone ((Thread.countsLast_group thread).map _) (looks_map _ (Thread.looks_group thread))
  | thisObject thread frame =>
      exact hone ((Frame.countsLast_thisObject thread frame).map _)
        (looks_map _ (Frame.looks_thisObject thread frame))
  | disposeObjects requests =>
      refine unwinds_done fun a ho stop b hfails => ?_
      cases hfails.symm.trans (Machine.perform_disposeObjects requests a)
  | setEvent kindCode policy modifiers => exact unwinds_map _ (unwinds_set kindCode policy modifiers)
  | setBreakpoint location policy =>
      exact unwinds_map _ (unwinds_set _ policy [.locationOnly location])
  | clearEvent kindCode request => exact unwinds_done (unwinds_clear kindCode request)
  | clearBreakpoint request => exact unwinds_done (unwinds_clear _ request)
  | clearAllBreakpoints =>
      refine unwinds_done fun a ho stop b hfails => ?_
      obtain ⟨c, -, hperform⟩ := perform_clearBreakpoints ho
      cases hfails.symm.trans hperform
  | _ =>
      exact hone (.keeps (keepsIds_ofClient caller (fun _ => ClientCommand.noConfusion) rfl))
        (looks_ofClient caller rfl).any

end Command

end DebugAgent
