import DebugAgent.Proofs.Alone
import DebugAgent.Proofs.FrameLists
import Mathlib.Data.List.Sort

/-!
# Lists of classes and threads

The machine lists its classes and its threads, and the client is told of them one after the other.
Each is recognised from then on.  So the list has one entry for each, under identifiers that differ,
and the classes of a name that are asked for next are the entries of that name: the two commands go
through the same classes in the same order.
-/

namespace DebugAgent

open DebugAgent.Action Command Tracking
open Relation (ReflTransGen)

variable {α : Type} {a b : Agent} {objects : List HeapId}

/-! ### Objects told of one after the other -/

/-- References that have just been taken are references to the objects, one by one. -/
theorem Vm.targets_newLocals {vm : Vm} (hb : vm.RefsBounded) (objects : List HeapId) :
    List.Forall₂ (fun h object => (vm.newLocals objects).2.target? h = some object)
      (vm.newLocals objects).1 objects := by
  induction objects generalizing vm with
  | nil => exact .nil
  | cons object objects ih =>
      have hbounded := (ages_newRef vm .localRef object).bounded hb
      exact .cons (target?_newLocals_of_some hbounded (target?_newRef vm .localRef object) objects)
        (ih hbounded)

/-- Tells of the objects of a list, which are referred to in the meantime. -/
def Command.listing (objects : Vm → List HeapId) (f : Handle → Command α) : Command (List α) := do
  let hs ← call (.update fun vm => vm.newLocals (objects vm))
  withLocals hs (hs.mapM f)

theorem forall₂_eq_some_iff {ι : Type} {f : ι → Option α} {is : List ι} {rs : List α} :
    List.Forall₂ (fun i r => f i = some r) is rs ↔ is.map f = rs.map some := by
  rw [← List.forall₂_eq_eq_eq, List.forall₂_map_left_iff, List.forall₂_map_right_iff]

section Each

variable {f : Handle → Command α} {Q : HeapId → Agent → Prop} {S : HeapId → Agent → α → Prop}
  (hlooks : ∀ h, Looks Control.Any (f h)) (hQ : ∀ object, Agent.Lasts (Q object))
  (hS : ∀ object r, Agent.Lasts fun b => S object b r)
  (hf : ∀ {h object c}, c.InShape → c.vm.target? h = some object → Q object c →
    ∃ r b, (f h).perform c = (.ok r, b) ∧ S object b r)
include hlooks hQ hS hf

/-- What each object is told for is still so when all have been told of. -/
theorem perform_mapM_each (hshape : a.InShape) {hs : List Handle}
    (htargets : List.Forall₂ (fun h object => a.vm.target? h = some object) hs objects)
    (ha : ∀ object ∈ objects, Q object a) :
    ∃ rs b, (hs.mapM f).perform a = (.ok rs, b) ∧
      List.Forall₂ (fun object r => S object b r) objects rs := by
  induction hs generalizing a objects with
  | nil =>
      cases htargets
      exact ⟨[], a, rfl, .nil⟩
  | cons h hs ih =>
      obtain ⟨object, objects, htarget, hremaining, rfl⟩ := List.forall₂_cons_left_iff.mp htargets
      obtain ⟨hfirst, hothers⟩ := List.forall_mem_cons.mp ha
      obtain ⟨r, near, hone, hr⟩ := hf hshape htarget hfirst
      have hshape' := hshape.looks (hlooks h)
      have htargets' := hremaining.imp fun k other hk => (hlooks h).target? hshape.toOrderly hk
      have hothers' := fun other hmem => (hQ other).looks hshape (hothers other hmem) (hlooks h)
      rw [hone] at hshape' htargets' hothers'
      obtain ⟨rs, last, hrest, hrs⟩ := ih hshape' htargets' hothers'
      have hkept := (hS object r).looks hshape' hr (looks_mapM hlooks hs)
      rw [hrest] at hkept
      refine ⟨r :: rs, last, ?_, .cons hkept hrs⟩
      rw [List.mapM_cons, perform_bind_of_ok hone, perform_bind_of_ok hrest, perform_pure]

/-- All objects of a list are told of. -/
theorem perform_listing (hshape : a.InShape) (objects : Vm → List HeapId)
    (hlive : a.vm.Has (objects a.vm)) (ha : ∀ object ∈ objects a.vm, Q object a) :
    ∃ rs b, (listing objects f).perform a = (.ok rs, b) ∧
      List.Forall₂ (fun object r => S object b r) (objects a.vm) rs := by
  let opened := a.vm.newLocals (objects a.vm)
  have hlisted : (call (.update fun vm => vm.newLocals (objects vm))).perform a =
      (.ok opened.1, a.setVm opened.2) := rfl
  have hglances := Vm.glance_newLocals (objects a.vm) a.vm
  have hopened : (a.setVm opened.2).InShape :=
    hshape.setVm ((Vm.ages_newLocals _ a.vm).bounded hshape.refs) (hshape.closed.newLocals hlive)
  obtain ⟨rs, near, htold, hrs⟩ := perform_mapM_each hlooks hQ hS hf hopened
    (Vm.targets_newLocals hshape.refs (objects a.vm))
    fun object hmem => (hQ object).glances hshape (ha object hmem) hglances
  have hnear := hopened.looks (looks_mapM hlooks opened.1)
  rw [htold] at hnear
  refine ⟨rs, near.setVm (opened.1.foldl dropLocal near.vm), ?_, ?_⟩
  · rw [listing, perform_bind_of_ok hlisted, perform_withLocals, htold]
  · exact hrs.imp fun object r hr =>
      (hS object r).glances hnear hr (Vm.glance_dropLocals opened.1 near.vm)

end Each

/-! ### Classes -/

/-- What the client is told of a class that it knows by an identifier. -/
def ClassBody.record (body : ClassBody) (id : ObjectId) : ReferenceType where
  typeId := ⟨body.kind, id⟩
  signature := body.signature
  genericSignature := body.genericSignature
  status := .ofState body.status

section Classes

variable {h : Handle} {cls : HeapId} {body : ClassBody} {record : ReferenceType}
  {records : List ReferenceType}

/-- What the client is told of a class. -/
def Agent.toldClass (a : Agent) (cls : HeapId) : Option ReferenceType :=
  (a.vm.classAt? cls).map (·.record (a.idFor cls))

/-- Objects can be tagged, and this is a class. -/
structure Agent.CanTell (a : Agent) (cls : HeapId) : Prop where
  granted : a.vm.grants Capabilities.canTagObjects
  isClass : (a.vm.classAt? cls).isSome

/-- The client would be told this of the class, which is recognised. -/
structure Agent.KnowsClass (a : Agent) (cls : HeapId) (record : ReferenceType) : Prop where
  told : a.toldClass cls = some record
  recognised : a.Recognises cls record.typeId.typeId
  granted : a.vm.grants Capabilities.canTagObjects

theorem lasts_canTell (cls : HeapId) : Agent.Lasts fun a => a.CanTell cls :=
  fun _ _ _ hworld h =>
    ⟨(Vm.grants_congr hworld.capabilities _).trans h.granted, by rw [hworld.classes]; exact h.isClass⟩

theorem lasts_knowsClass (cls : HeapId) (record : ReferenceType) :
    Agent.Lasts fun a => a.KnowsClass cls record := by
  intro a b hrecalls hworld h
  have hknown := hrecalls.recognises h.recognised
  refine ⟨?_, hknown, (Vm.grants_congr hworld.capabilities _).trans h.granted⟩
  rw [← h.told, Agent.toldClass, Agent.toldClass, hworld.classes, hknown.idFor, h.recognised.idFor]

namespace Command.Machine

/-- The record of a class, in full. -/
theorem perform_classRecord? (hshape : a.InShape)
    (hgrant : a.vm.grants Capabilities.canTagObjects) (htarget : a.vm.target? h = some cls)
    (htold : a.toldClass cls = some record) (wanted : String → Bool) :
    (classRecord? wanted h).perform a =
      if wanted record.signature then (.ok (some record), a.handingOut cls)
      else (.ok none, a) := by
  obtain ⟨body, hbody, rfl⟩ := Option.map_eq_some_iff.mp htold
  have hsignature : a.vm.classSignature h = .ok (body.signature, body.genericSignature) := by
    simp [Vm.classSignature, Vm.classOf, htarget, hbody]
  rw [classRecord?, perform_bind_of_ok (perform_ask_ok hsignature)]
  by_cases hwanted : wanted body.signature
  · rw [if_pos (show wanted (body.record _).signature from hwanted)]
    dsimp only
    rw [if_pos hwanted]
    have htrack := perform_trackClass htarget (hshape.closed.target? htarget)
    simp only [hbody, if_pos hgrant] at htrack
    have hlooks := @looks_trackClass Control.Any h
    have hworld := hlooks.keepsWorld.perform a
    have hstill := hlooks.target? hshape.toOrderly htarget
    rw [htrack] at hworld hstill
    have hstatus : (a.handingOut cls).vm.classStatus h = .ok body.status := by
      simp [Vm.classStatus, Vm.classOf, hstill, hworld.classes, hbody, Except.map]
    rw [perform_bind_of_ok htrack, perform_bind_of_ok (perform_ask_ok hstatus)]
    rfl
  · rw [if_neg (show ¬ wanted (body.record _).signature from hwanted)]
    dsimp only
    rw [if_neg hwanted]
    rfl

/-- A class that is told of is known from then on. -/
theorem classRecord?_settles (hshape : a.InShape) (htarget : a.vm.target? h = some cls)
    (htell : a.CanTell cls) :
    ∃ r b, (classRecord? (fun _ => true) h).perform a = (.ok r, b) ∧
      ∃ record, r = some record ∧ b.KnowsClass cls record := by
  obtain ⟨body, hbody⟩ := Option.isSome_iff_exists.mp htell.isClass
  have htold : a.toldClass cls = some (body.record (a.idFor cls)) := by
    rw [Agent.toldClass, hbody, Option.map_some]
  have hrecord := perform_classRecord? hshape htell.granted htarget htold fun _ => true
  rw [if_pos rfl] at hrecord
  have hworld := (@looks_classRecord? Control.Any (fun _ => true) h).keepsWorld.perform a
  rw [hrecord] at hworld
  have hknown := recognises_handingOut hshape.ids (hshape.closed.target? htarget)
  refine ⟨_, _, hrecord, _, rfl, ?_, hknown, ?_⟩
  · rw [Agent.toldClass, hworld.classes, hbody, hknown.idFor, Option.map_some]
  · exact (Vm.grants_congr hworld.capabilities _).trans htell.granted

/-- A class that is known is told of as before, if it is wanted. -/
theorem classRecord?_again (wanted : String → Bool) (hshape : a.InShape)
    (htarget : a.vm.target? h = some cls) (hknows : a.KnowsClass cls record) :
    ((classRecord? wanted h).perform a).1 =
      .ok ((some record).filter fun r => wanted r.signature) := by
  rw [perform_classRecord? hshape hknows.granted htarget hknows.told wanted, Option.filter]
  split <;> rfl

theorem perform_classesWhere (wanted : String → Bool) (a : Agent) :
    (classesWhere wanted).perform a =
      (List.filterMap id <$> listing Vm.classIds (classRecord? wanted)).perform a := by
  have hlisted : (call Vm.loadedClasses).perform a =
      (.ok (a.vm.newLocals a.vm.classIds).1, a.setVm (a.vm.newLocals a.vm.classIds).2) := rfl
  rw [perform_map, listing, ← Vm.loadedClasses, perform_bind_of_ok hlisted, classesWhere,
    perform_bind_of_ok hlisted]
  simp only [bind_pure_comp, perform_withLocals, perform_map]

theorem mem_classIds {vm : Vm} : cls ∈ vm.classIds ↔ (vm.classAt? cls).isSome := by
  rw [Vm.classIds, List.mem_filter, List.mem_range, and_iff_right_iff_imp]
  intro hclass
  obtain ⟨body, hbody⟩ := Option.isSome_iff_exists.mp hclass
  rw [Vm.classAt?_eq] at hbody
  obtain ⟨object, hobject, -⟩ := Option.bind_eq_some_iff.mp hbody
  exact (Array.getElem?_eq_some_iff.mp hobject).1

/-- The classes are listed in the same order as long as they are the same. -/
theorem classIds_congr {vm vm' : Vm} (hclasses : vm'.classAt? = vm.classAt?) :
    vm'.classIds = vm.classIds :=
  have hsorted : ∀ vm : Vm, vm.classIds.Pairwise (· < ·) := fun _ => List.pairwise_lt_range.filter _
  (hsorted vm').eq_of_mem_iff (hsorted vm) fun cls => by
    rw [mem_classIds, mem_classIds, hclasses]

theorem has_classIds (vm : Vm) : vm.Has vm.classIds :=
  fun _ hmem => List.mem_range.mp (List.mem_filter.mp hmem).1

/-- All classes are told of. -/
theorem allClasses_settles (hshape : a.InShape)
    (hgrant : a.vm.grants Capabilities.canTagObjects) :
    ∃ records b, allClasses.perform a = (.ok records, b) ∧
      List.Forall₂ b.KnowsClass a.vm.classIds records := by
  obtain ⟨rs, b, hlisting, hrs⟩ := perform_listing
    (looks_classRecord? fun _ => true) lasts_canTell
    (fun cls r _ _ hrecalls hworld ⟨record, hr, hknows⟩ =>
      ⟨record, hr, lasts_knowsClass cls record hrecalls hworld hknows⟩)
    classRecord?_settles hshape Vm.classIds (has_classIds a.vm)
    fun cls hmem => ⟨hgrant, mem_classIds.mp hmem⟩
  refine ⟨rs.filterMap id, b, ?_, ?_⟩
  · rw [allClasses, perform_classesWhere, perform_map, hlisting]
    rfl
  · -- none is left out
    clear hlisting
    generalize a.vm.classIds = classes at hrs
    induction hrs with
    | nil => exact .nil
    | cons hone _ ih =>
        obtain ⟨record, rfl, hknows⟩ := hone
        exact .cons hknows ih

/-- The classes that are wanted are those of the classes that are known. -/
theorem classesWhere_again (wanted : String → Bool) (hshape : a.InShape)
    (hknows : List.Forall₂ a.KnowsClass a.vm.classIds records) :
    ((classesWhere wanted).perform a).1 =
      .ok (records.filter fun record => wanted record.signature) := by
  let filtered (r : Option ReferenceType) := r.filter fun record => wanted record.signature
  obtain ⟨rs, b, hlisting, hrs⟩ := perform_listing
    (Q := fun cls c => ∃ record, a.toldClass cls = some record ∧ c.KnowsClass cls record)
    (S := fun cls _ r => r = filtered (a.toldClass cls))
    (looks_classRecord? wanted)
    (fun cls _ _ hrecalls hworld ⟨record, htold, hknown⟩ =>
      ⟨record, htold, lasts_knowsClass cls record hrecalls hworld hknown⟩)
    (fun _ _ _ _ _ _ h => h)
    (fun hc htarget ⟨record, htold, hknown⟩ =>
      ⟨_, _, Prod.ext (classRecord?_again wanted hc htarget hknown) rfl, by rw [htold]⟩)
    hshape Vm.classIds (has_classIds a.vm) (forall_mem_of_forall₂ (List.Forall₂.flip
      (hknows.imp fun cls record hknown => ⟨record, hknown.told, hknown⟩)))
  have hrecords := forall₂_eq_some_iff.mp (hknows.imp fun _ _ hknown => hknown.told)
  have hall : rs = records.map (filtered ∘ some) := by
    have hsame : a.vm.classIds.map (filtered ∘ a.toldClass) = rs := by
      rw [← List.forall₂_eq_eq_eq, List.forall₂_map_left_iff]
      exact hrs.imp fun _ _ hr => hr.symm
    rw [← hsame, ← List.map_map, hrecords, List.map_map]
  have hfiltered : rs.filterMap id = records.filter fun record => wanted record.signature := by
    rw [hall, List.filterMap_map, ← List.filterMap_eq_filter]
    rfl
  rw [perform_classesWhere, perform_map, hlisting, ← hfiltered]
  rfl

end Command.Machine

end Classes

/-! ### Threads -/

theorem lasts_grants : Agent.Lasts fun a => a.vm.grants Capabilities.canTagObjects :=
  fun _ _ _ hworld h => (Vm.grants_congr hworld.capabilities _).trans h

theorem lasts_recognises (object : HeapId) (id : ObjectId) :
    Agent.Lasts fun a => a.Recognises object id :=
  fun _ _ hrecalls _ h => hrecalls.recognises h

/-- All threads that have not ended are told of. -/
theorem Command.Machine.allThreads_settles (hshape : a.InShape)
    (hgrant : a.vm.grants Capabilities.canTagObjects) :
    ∃ ids b, allThreads.perform a = (.ok ids, b) ∧
      List.Forall₂ b.Recognises a.vm.liveThreadIds ids :=
  perform_listing (fun h => .trackNew h) (fun _ => lasts_grants) lasts_recognises
    (fun hc htarget hgranted => ⟨_, _, perform_trackNew hgranted htarget (hc.closed.target? htarget),
      recognises_handingOut hc.ids (hc.closed.target? htarget)⟩)
    hshape Vm.liveThreadIds (fun _ hmem => List.mem_range.mp (List.mem_filter.mp hmem).1) fun _ _ => hgrant

/-! ### What the client gets -/

/-- The identifiers differ, and each of the objects is designated by one of them. -/
structure Agent.Enumerates (a : Agent) (which : HeapId → Prop) (ids : List ObjectId) : Prop where
  nodup : ids.Nodup
  named : ∀ id ∈ ids, ∃ object, which object ∧ a.tracker.target? a.vm id = some object
  each : ∀ object, which object → ∃! id, id ∈ ids ∧ a.tracker.target? a.vm id = some object

/-- Objects that are recognised, each of them listed once, are listed under identifiers that
differ. -/
theorem Sound.enumerates (hs : Sound a) {which : HeapId → Prop} {ids : List ObjectId}
    (hnodup : objects.Nodup) (hwhich : ∀ object, object ∈ objects ↔ which object)
    (hknown : List.Forall₂ a.Recognises objects ids) : a.Enumerates which ids := by
  have hsame : ids.map (a.tracker.target? a.vm) = objects.map some :=
    forall₂_eq_some_iff.mp (List.Forall₂.flip (hknown.imp fun _ _ h =>
      (hs.designates_of_recognises h).target?))
  refine ⟨?_, fun id hmem => ?_, fun object hobject => ?_⟩
  · have hdistinct := hnodup.map fun _ _ => Option.some.inj
    rw [← hsame] at hdistinct
    exact hdistinct.of_map
  · have hmem' := List.mem_map_of_mem (f := a.tracker.target? a.vm) hmem
    rw [hsame] at hmem'
    obtain ⟨object, hobject, hnamed⟩ := List.mem_map.mp hmem'
    exact ⟨object, (hwhich object).mp hobject, hnamed.symm⟩
  · have hmem := List.mem_map_of_mem (f := some) ((hwhich object).mpr hobject)
    rw [← hsame] at hmem
    obtain ⟨id, hid, hnamed⟩ := List.mem_map.mp hmem
    exact ⟨id, ⟨hid, hnamed⟩, fun other hother => hs.eq_of_target? hother.2 hnamed⟩

section Listed

variable {records : List ReferenceType}

/-- The classes that have been told of are all there are. -/
theorem Agent.Alone.enumerates_classes (h : a.Alone)
    (hknows : List.Forall₂ a.KnowsClass a.vm.classIds records) :
    a.Enumerates (fun cls => (a.vm.classAt? cls).isSome)
      (records.map fun record => record.typeId.typeId) :=
  h.sound.enumerates (List.nodup_range.filter _) (fun _ => Machine.mem_classIds)
    (List.forall₂_map_right_iff.mpr (hknows.imp fun _ _ hknown => hknown.recognised))

/-- A class that has been told of is described by its record. -/
theorem Agent.Alone.describes_class (h : a.Alone) {cls : HeapId} {record : ReferenceType}
    (hknown : a.KnowsClass cls record) :
    ∃ body, a.tracker.target? a.vm record.typeId.typeId = some cls ∧
      a.vm.classAt? cls = some body ∧ record = body.record record.typeId.typeId := by
  obtain ⟨body, hbody, hrecord⟩ := Option.map_eq_some_iff.mp hknown.told
  rw [hknown.recognised.idFor] at hrecord
  exact ⟨body, h.target?_of_recognises hknown.recognised, hbody, hrecord.symm⟩

/-- The client asks for the classes of a name when it has been told of all classes. -/
theorem Agent.Alone.serve_classesBySignature (h : a.Alone) (hattach : a.vm.attachFails = false)
    (hknows : List.Forall₂ a.KnowsClass a.vm.classIds records) (caller : NativeThread)
    (signature : String) : (Agent.serve caller (.classesBySignature signature) a).1 =
      .ok (.classes (records.filter fun record => record.signature = signature)) := by
  let near := a.setVm (a.vm.attach caller).2
  have hsame : near.vm.classIds = a.vm.classIds :=
    Machine.classIds_congr (Vm.classes_attach a.vm caller)
  have hknows' : List.Forall₂ near.KnowsClass near.vm.classIds records := by
    rw [hsame]
    exact hknows.imp fun cls record =>
      lasts_knowsClass cls record (.attach a caller) (.attach a.vm caller)
  have hagain := Machine.classesWhere_again (· = signature)
    (h.attached hattach caller).reachable.inShape hknows'
  rw [Agent.serve_eq_map hattach (by simp) rfl]
  dsimp only
  rw [Machine.classesBySignature, hagain]
  rfl

end Listed

/-- Every class on the heap is told of, under an identifier of its own that designates it, and the
classes of a name that are asked for next are the entries of that name.  Every thread that has not
ended is told of under an identifier of its own, the threads of the agent included: that of the caller
is among them, even if the command is its first. -/
theorem classes_and_threads_listed {a : Agent} (h : a.Alone) (hattach : a.vm.attachFails = false)
    (hgrant : a.vm.grants Capabilities.canTagObjects) (caller other : NativeThread) :
    (∃ records after, Agent.serve caller .allClasses a = (.ok (.classes records), after) ∧
      after.Enumerates (fun cls => (a.vm.classAt? cls).isSome)
        (records.map fun record => record.typeId.typeId) ∧
      (∀ record ∈ records, ∃ cls body,
        after.tracker.target? after.vm record.typeId.typeId = some cls ∧
          a.vm.classAt? cls = some body ∧ record = body.record record.typeId.typeId) ∧
      ∀ signature, (Agent.serve other (.classesBySignature signature) after).1 =
        .ok (.classes (records.filter fun record => record.signature = signature))) ∧
    ∃ ids after, Agent.serve caller .allThreads a = (.ok (.objects ids), after) ∧
      after.Enumerates (fun thread => (a.vm.attach caller).2.isLiveThread thread) ids := by
  let near := a.setVm (a.vm.attach caller).2
  have hshape : near.InShape := (h.attached hattach caller).reachable.inShape
  have hgrant' : near.vm.grants Capabilities.canTagObjects :=
    (Vm.grants_congr (Vm.frame_attach caller).capabilities _).trans hgrant
  have hafter : ∀ {command reply after}, Agent.serve caller command a = (.ok reply, after) →
      after.Alone := by
    intro command reply after hanswer
    have happlied := h.apply (.command caller command) Vm.has_nil
    rwa [Agent.apply, hanswer] at happlied
  constructor
  · obtain ⟨records, after, hperform, hknows⟩ := Machine.allClasses_settles hshape hgrant'
    have hworld : a.vm.KeepsWorld after.vm := by
      have hlooks := @Machine.looks_classesWhere Control.Any fun _ => true
      have hkept := (Vm.KeepsWorld.attach a.vm caller).trans (hlooks.keepsWorld.perform near)
      rwa [show (Machine.classesWhere fun _ => true).perform near = _ from hperform] at hkept
    have hanswer : Agent.serve caller .allClasses a = (.ok (.classes records), after) := by
      rw [Agent.serve_eq_map hattach (by simp) rfl, hperform]
      rfl
    have hsame : after.vm.classAt? = near.vm.classAt? :=
      hworld.classes.trans (Vm.classes_attach a.vm caller).symm
    rw [← Machine.classIds_congr hsame] at hknows
    have hlisted := hafter hanswer
    refine ⟨records, after, hanswer, ?_, ?_, ?_⟩
    · rw [← hworld.classes]
      exact hlisted.enumerates_classes hknows
    · rw [← hworld.classes]
      exact forall_mem_of_forall₂ (P := fun record => ∃ cls body,
        after.tracker.target? after.vm record.typeId.typeId = some cls ∧
          after.vm.classAt? cls = some body ∧ record = body.record record.typeId.typeId)
        (hknows.imp fun cls record hknown => ⟨cls, hlisted.describes_class hknown⟩)
    · exact hlisted.serve_classesBySignature (hworld.attachFails.trans hattach) hknows other
  · obtain ⟨ids, after, hperform, hknown⟩ := Machine.allThreads_settles hshape hgrant'
    have hanswer : Agent.serve caller .allThreads a = (.ok (.objects ids), after) := by
      rw [Agent.serve_eq_map hattach (by simp) rfl, hperform]
      rfl
    have hdistinct : near.vm.liveThreadIds.Nodup := List.nodup_range.filter _
    exact ⟨ids, after, hanswer,
      (hafter hanswer).sound.enumerates hdistinct (fun _ => Vm.mem_liveThreadIds) hknown⟩

/-- Two classes of one name, and a thread that has ended. -/
def twins : Agent :=
  (Agent.start Vm.fresh {}).run
    [.setup (.defineClass "LTwin;"), .setup (.defineInterface "LTwin;"),
      .setup (.spawnThread "main"), .setup (.terminateThread 11)]

/-- What the client is told of a class that is ready for use. -/
def readyClass (kind : TypeKind) (id : ObjectId) (signature : String) : ReferenceType :=
  ⟨⟨kind, id⟩, signature, none, ⟨7⟩⟩

/-- The twins are told apart by their kinds and identifiers.  The only thread that has not ended is
that of the caller. -/
theorem twins_listed : twins.Alone ∧ twins.vm.attachFails = false ∧
    twins.vm.grants Capabilities.canTagObjects ∧
    (Agent.serve (.client 1) (.classesBySignature "LTwin;")
        (Agent.serve (.client 0) .allClasses twins).2).1 =
      .ok (.classes [readyClass .classType 7 "LTwin;", readyClass .interfaceType 8 "LTwin;"]) ∧
    (Agent.serve (.client 0) .allThreads twins).1 = .ok (.objects [1]) ∧
    (Agent.serve (.client 0) .allThreads twins).2.Enumerates (· = 12) [1] := by
  have halone : twins.Alone := by
    apply Agent.Alone.run (.start {})
    decide +kernel
  have hattach : twins.vm.attachFails = false := by decide +kernel
  have hgrant : twins.vm.grants Capabilities.canTagObjects := by decide +kernel
  obtain ⟨⟨records, after, hanswer, -, -, hsignature⟩, ids, last, hids, hthreads⟩ :=
    classes_and_threads_listed halone hattach hgrant (.client 0) (.client 1)
  let core := ["Ljava/lang/Object;", "Ljava/lang/Class;", "Ljava/lang/String;",
    "Ljava/lang/Thread;", "Ljava/lang/ThreadGroup;", "Ljava/lang/ClassLoader;"]
  have hrecords : (Agent.serve (.client 0) .allClasses twins).1 =
      .ok (.classes ((core.zipIdx 1).map (fun entry => readyClass .classType entry.2 entry.1) ++
        [readyClass .classType 7 "LTwin;", readyClass .interfaceType 8 "LTwin;"])) := by
    decide +kernel
  have honly : (Agent.serve (.client 0) .allThreads twins).1 = .ok (.objects [1]) := by
    decide +kernel
  have hlive : ∀ thread, (twins.vm.attach (.client 0)).2.isLiveThread thread = true ↔
      thread = 12 := by
    have hlisted : (twins.vm.attach (.client 0)).2.liveThreadIds = [12] := by decide +kernel
    intro thread
    rw [← Vm.mem_liveThreadIds, hlisted, List.mem_singleton]
  refine ⟨halone, hattach, hgrant, ?_, honly, ?_⟩
  · rw [hanswer] at hrecords ⊢
    cases hrecords
    exact (hsignature "LTwin;").trans (by decide +kernel)
  · rw [hids] at honly ⊢
    cases honly
    simpa only [hlive] using hthreads

end DebugAgent
