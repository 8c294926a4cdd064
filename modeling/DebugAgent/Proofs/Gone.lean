import DebugAgent.Proofs.Answers
import DebugAgent.Proofs.Naming

/-!
# Identifiers that are gone

Identifiers are handed out in order and never twice: what the next one is only grows.  So an
identifier that has been given back for good is gone.  No later answer or event names it, and a
command that names it is refused before it does anything, as it is for an identifier that has not
been handed out.
-/

namespace DebugAgent

open DebugAgent.Action Command Tracking
open Relation (ReflTransGen)

/-- The identifiers in what a command comes to. -/
def idsIn {α : Type} (ids : α → List ObjectId) : Except ProtocolError α → List ObjectId
  | .ok result => ids result
  | .error _ => []

namespace Agent

/-- The identifier is in use. -/
def Knows (a : Agent) (id : ObjectId) : Prop := (a.tracker.entries.get? id).isSome

/-- The identifier has been handed out by now.  Handing out is what the table of identifiers does,
whether or not the answer or the event that is to tell the client comes about. -/
def HasHandedOut (a : Agent) (id : ObjectId) : Prop := 0 < id ∧ id < a.tracker.nextId

/-- The identifiers that an operation tells the client. -/
def handsOut (a : Agent) : Op → List ObjectId
  | .command caller command => idsIn Reply.ids (serve caller command a).1
  | .trackNew caller h => idsIn (fun id => [id]) (answer caller (trackNew h) a).1
  | .trackObject caller h declared =>
      idsIn (fun object => [object.objectId]) (answer caller (trackObject h declared) a).1
  | .trackClass caller h => idsIn (fun type => [type.typeId]) (answer caller (trackClass h) a).1
  | .callback caller c => (a.firedEvents caller c).flatMap fun event => event.details.ids
  | .deliver caller c =>
      let (carried, vm) := a.vm.enterCallback c
      if a.vm.delivers c then
        ((a.setVm vm).firedEvents caller carried).flatMap fun event => event.details.ids
      else []
  | _ => []

end Agent

/-- The object that a command is about, and how it is refused if there is none. -/
def ClientCommand.subject? : ClientCommand → Option (ObjectId × ProtocolError)
  | .signature id | .signatureWithGeneric id | .modifiers id | .fields id | .methods id
  | .staticValues id _ | .sourceFile id | .classStatus id | .interfaces id | .lineTable id _
  | .variableTable id _ | .bytecodes id _ => some (id, .invalidClass)
  | .referenceType id | .objectValues id _ | .stringValue id | .arrayLength id
  | .arrayValues id _ _ => some (id, .invalidObject)
  | .threadName id | .suspendThread id | .resumeThread id | .threadStatus id | .threadGroup id
  | .frames id _ _ | .frameCount id | .suspendCount id | .frameValues id _ _
  | .thisObject id _ => some (id, .invalidThread)
  | _ => none

/-- A command about the identifier is refused.  Nothing has been done by then that shows: the native
thread that issued it has been attached. -/
def Agent.Refuses (a : Agent) (id : ObjectId) : Prop :=
  ∀ caller command cause, command.subject? = some (id, cause) → a.vm.attachFails = false →
    let b := (Agent.serve caller command a).2
    (Agent.serve caller command a).1 = .error cause ∧
      b.tracker = a.tracker ∧ b.requests = a.requests ∧
      b.vm.breakpoints = a.vm.breakpoints ∧ b.vm.notifications = a.vm.notifications ∧
      ∀ thread body, a.vm.threadAt? thread = some body → b.vm.threadAt? thread = some body

variable {a b : Agent} {id : ObjectId}

/-! ### Commands that are refused -/

theorem target?_of_not_knows (hdead : ¬ a.Knows id) (vm : Vm) : a.tracker.target? vm id = none := by
  have hnone : a.tracker.entries.get? id = none := by simpa [Agent.Knows] using hdead
  simp [Tracker.target?, Tracker.global?, hnone]

/-- A command looks for its subject before it does anything else. -/
theorem perform_ofClient_dead (hdead : a.tracker.target? a.vm id = none) (caller : NativeThread)
    {command : ClientCommand} {cause : ProtocolError}
    (hsubject : command.subject? = some (id, cause)) :
    (ofClient caller command).perform a = (.error (.refused cause), a) := by
  have hclass : ∀ {α : Type} (x : Handle → Command α),
      (withClass id x).perform a = (.error (.refused .invalidClass), a) :=
    perform_withRef_dead hdead
  have hobject : ∀ {α : Type} (x : Handle → Command α),
      (withObject id x).perform a = (.error (.refused .invalidObject), a) :=
    perform_withRef_dead hdead
  have hthread : ∀ {α : Type} (x : Handle → Command α),
      (withThread id x).perform a = (.error (.refused .invalidThread), a) :=
    perform_withThread_dead hdead
  cases command with
  | signature | signatureWithGeneric | modifiers | fields | methods | staticValues | sourceFile
  | classStatus | interfaces | lineTable | variableTable | bytecodes =>
      cases hsubject
      simp [ofClient, Class.signature, Class.signatureWithGeneric, Class.modifiers, Class.fields,
        Class.methods, Class.values, Class.sourceFile, Class.status, Class.interfaces,
        Method.lineTable, Method.variableTable, Method.bytecodes, Method.withMethod, hclass,
        Except.map]
  | referenceType | objectValues | stringValue | arrayLength | arrayValues =>
      cases hsubject
      simp [ofClient, Object.referenceType, Object.values, Object.stringValue, Object.arrayLength,
        Object.arrayValues, hobject, Except.map]
  | threadName | suspendThread | resumeThread | threadStatus | threadGroup | frames | frameCount
  | suspendCount | frameValues | thisObject =>
      cases hsubject
      simp [ofClient, done, Thread.name, Thread.group, Thread.withInfo, Thread.status, Thread.state,
        Thread.suspendCount, Thread.frameCount, Thread.frames, Frame.values, Frame.thisObject,
        Suspension.suspend, Suspension.resume, hthread, Except.map]
  | _ => cases hsubject

theorem threadAt?_attach {vm : Vm} {thread : HeapId} {body : ThreadBody}
    (hthread : vm.threadAt? thread = some body) (caller : NativeThread) :
    (vm.attach caller).2.threadAt? thread = some body := by
  rw [Vm.threadAt?_eq] at hthread ⊢
  obtain ⟨held, hheld, hbody⟩ := Option.bind_eq_some_iff.mp hthread
  rw [Vm.heap_attach hheld]
  exact hbody

theorem refuses_of_not_knows (hdead : ¬ a.Knows id) : a.Refuses id := by
  intro caller command cause hsubject hattaches
  have hserve : Agent.serve caller command a = answer caller (ofClient caller command) a := by
    cases command with
    | capabilities => cases hsubject
    | _ => rfl
  have hperform : (ofClient caller command).perform (a.setVm (a.vm.attach caller).2) =
      (.error (.refused cause), a.setVm (a.vm.attach caller).2) :=
    @perform_ofClient_dead (a.setVm (a.vm.attach caller).2) id (target?_of_not_knows hdead _) caller
      command cause hsubject
  have hframe : a.vm.Frame (a.vm.attach caller).2 := Vm.frame_attach caller
  rw [hserve, answer_of_attaching hattaches, hperform]
  exact ⟨rfl, rfl, rfl, hframe.breakpoints, hframe.notifications,
    fun thread body hthread => threadAt?_attach hthread caller⟩

/-! ### Identifiers are not handed out twice -/

/-- Between two states identifiers have been handed out from the next one on.  What was handed out
before and is in use was in use all along. -/
structure Onward (a b : Agent) : Prop where
  nextId_le : a.tracker.nextId ≤ b.tracker.nextId
  knows : ∀ id, id < a.tracker.nextId → b.Knows id → a.Knows id

namespace Onward

variable {c : Agent}

theorem of_tracker_eq (htracker : b.tracker = a.tracker) : Onward a b where
  nextId_le := Nat.le_of_eq (congrArg Tracker.nextId htracker.symm)
  knows := fun id _ h => by rwa [Agent.Knows, ← htracker]

theorem refl (a : Agent) : Onward a a := .of_tracker_eq rfl

theorem trans (h : Onward a b) (h' : Onward b c) : Onward a c where
  nextId_le := Nat.le_trans h.nextId_le h'.nextId_le
  knows := fun id hid hc =>
    h.knows id hid (h'.knows id (Nat.lt_of_lt_of_le hid h.nextId_le) hc)

theorem change (h : Change a b) : Onward a b := by
  cases h with
  | machine | advance | session => exact .of_tracker_eq rfl
  | @recount known entry hentry count hpos =>
      refine ⟨Nat.le_refl _, fun id _ h => ?_⟩
      simp only [Agent.Knows, Tracker.setReferences, Table.get?_insert] at h ⊢
      split at h
      · rename_i hsame
        rw [hsame, hentry]
        rfl
      · exact h
  | @enrol object tag htag hnew =>
      refine ⟨Nat.le_succ _, fun id hid h => ?_⟩
      simp only [Agent.Knows, Agent.enrol, Tracker.add, Table.get?_insert] at h ⊢
      rwa [if_neg (Nat.ne_of_lt hid)] at h
  | @forget known entry hentry =>
      refine ⟨Nat.le_refl _, fun id _ h => ?_⟩
      obtain ⟨found, hfound⟩ := Option.isSome_iff_exists.mp h
      exact Option.isSome_iff_exists.mpr ⟨found, (Table.get?_erase_eq_some.mp hfound).2⟩
  | remove hmem hreleases hdisables =>
      obtain ⟨set, counts, rfl⟩ := hreleases.eq
      obtain ⟨thread, enabled, held, rfl⟩ := hdisables.eq
      exact .of_tracker_eq rfl

theorem engagement (h : Engagement a b) : Onward a b := by
  cases h with
  | request hneeded hholds henables =>
      obtain ⟨set, counts, rfl⟩ := hholds.eq
      obtain ⟨vm, enabled, held, hkeeps, rfl⟩ := henables.eq
      exact .of_tracker_eq rfl
  | session hnone henables =>
      obtain ⟨vm, enabled, held, hkeeps, rfl⟩ := henables.eq
      exact .of_tracker_eq rfl

theorem unfolds (h : Unfolds a b) : Onward a b := by
  induction h with
  | refl => exact .refl a
  | tail _ hstep ih =>
      rcases hstep with hchange | hengagement
      · exact ih.trans (.change hchange)
      · exact ih.trans (.engagement hengagement)

end Onward

/-! ### What is told is in use -/

theorem knows_of_counted {ids : List ObjectId} (hcounted : Counted ids a b) (hmem : id ∈ ids)
    (hid : id ≠ 0) : b.Knows id := by
  have hrose := hcounted.rose id hid
  have hpos : 0 < ids.count id := List.count_pos_iff.mpr hmem
  cases hentry : b.tracker.entries.get? id with
  | some entry => simp [Agent.Knows, hentry]
  | none =>
      rw [Agent.references, hentry] at hrose
      simp only [Option.map_none, Option.getD_none] at hrose
      omega

theorem knows_of_answer (ho : InOrder a) {α : Type} {x : Command α} {ids : α → List ObjectId}
    (hx : Hands x ids) {caller : NativeThread} (hmem : id ∈ idsIn ids (answer caller x a).1)
    (hid : id ≠ 0) : (answer caller x a).2.Knows id := by
  cases hanswer : answer caller x a with
  | mk outcome b =>
      rw [hanswer] at hmem
      cases outcome with
      | error cause => cases hmem
      | ok r => exact knows_of_counted (hx.answer ho.ids hanswer) hmem hid

/-- A command that has nothing to tell names no object. -/
theorem idsIn_answer_done (caller : NativeThread) (x : Command Unit) (a : Agent) :
    idsIn Reply.ids (answer caller (done x) a).1 = [] := by
  cases hanswer : answer caller (done x) a with
  | mk outcome b =>
      cases outcome with
      | error cause => rfl
      | ok reply =>
          have hperform := perform_of_answer hanswer
          rw [done, ← bind_assoc, perform_bind] at hperform
          split at hperform
          · cases hperform
            rfl
          · cases hperform

theorem knows_of_firedEvents (ho : InOrder a) {caller : NativeThread} {c : Callback Handle}
    (hmem : id ∈ (a.firedEvents caller c).flatMap fun event => event.details.ids) (hid : id ≠ 0) :
    (a.onCallback caller c).Knows id := by
  obtain ⟨event, hevent, hmem⟩ := List.mem_flatMap.mp hmem
  have hlooks : a.LooksAt c.kind.eventKind := by
    by_contra hnot
    rw [Agent.firedEvents, (answer_of_not_looksAt caller hnot).1] at hevent
    cases hevent
  obtain ⟨noted, hcounted, -, hsame⟩ := counted_onCallback caller ho hlooks
  exact knows_of_counted hcounted (hsame event hevent ▸ hmem) hid

/-- An identifier that an operation tells the client is in use after the operation. -/
theorem knows_of_handsOut (ho : InOrder a) {op : Op} (hmem : id ∈ a.handsOut op) (hid : id ≠ 0) :
    (a.apply op).Knows id := by
  cases op with
  | command caller command =>
      cases command with
      | capabilities => cases hmem
      | disposeObjects requests =>
          change id ∈ idsIn Reply.ids (answer caller (done (Machine.disposeObjects requests)) a).1
            at hmem
          rw [idsIn_answer_done] at hmem
          cases hmem
      | _ =>
          exact knows_of_answer ho (hands_ofClient caller fun _ => ClientCommand.noConfusion) hmem
            hid
  | trackNew caller h => exact knows_of_answer ho (.trackNew h) hmem hid
  | trackObject caller h declared => exact knows_of_answer ho (.trackObject h declared) hmem hid
  | trackClass caller h => exact knows_of_answer ho (.trackClass h) hmem hid
  | callback caller c => exact knows_of_firedEvents ho hmem hid
  | deliver caller c =>
      rw [Agent.handsOut] at hmem
      rw [Agent.apply, Agent.deliver]
      cases hdelivers : a.vm.delivers c with
      | false =>
          simp only [hdelivers, Bool.false_eq_true, if_false] at hmem
          cases hmem
      | true =>
          simp only [hdelivers, if_true] at hmem ⊢
          have hconserves := Vm.conserves_of_touches (Vm.touch_enterCallback c a.vm) ho.refs
          exact knows_of_firedEvents (ho.setVm (hconserves.toAges.bounded ho.refs)) hmem hid
  | setup | attach | closeSession | drain | release | dispose => cases hmem

/-! ### Runs -/

theorem InOrder.run (ho : InOrder a) (ops : List Op) : InOrder (a.run ops) :=
  ho.unfolds (unfolds_run ho.toOrderly ops)

theorem handedOut_of_knows (ho : InOrder a) (hid : a.Knows id) : a.HasHandedOut id := by
  obtain ⟨entry, hentry⟩ := Option.isSome_iff_exists.mp hid
  exact ho.ids.bounded hentry

/-- An identifier that has gone out of use never comes back. -/
theorem not_knows_of_gone (ho : InOrder a) (hid : a.Knows id) {between : List Op}
    (hgone : ¬ (a.run between).Knows id) (later : List Op) :
    ¬ ((a.run between).run later).Knows id := by
  have hbetween : Onward a (a.run between) := .unfolds (unfolds_run ho.toOrderly between)
  have hlater : Onward (a.run between) ((a.run between).run later) :=
    .unfolds (unfolds_run (ho.run between).toOrderly later)
  have hlt : id < (a.run between).tracker.nextId :=
    Nat.lt_of_lt_of_le (handedOut_of_knows ho hid).2 hbetween.nextId_le
  exact fun hback => hgone (hlater.knows id hlt hback)

/-- An identifier that has not been handed out is not in use, and commands about it are refused; 0 is
never handed out.  An identifier that is in use and has been released after some operations stays out
of use whatever comes later.  Commands about it are refused, and no answer and no event names it. -/
theorem dead_identifiers_stay_dead (past : Past) (between later : List Op) (id : ObjectId) :
    let before := past.agent
    let released := before.run between
    let a := released.run later
    ¬ a.HasHandedOut 0 ∧ (¬ a.HasHandedOut id → ¬ a.Knows id ∧ a.Refuses id) ∧
      (before.Knows id → ¬ released.Knows id →
        ¬ a.Knows id ∧ a.Refuses id ∧ ∀ op, id ∉ a.handsOut op) := by
  intro before released a
  have ho : InOrder before := past.inOrder
  have hrun : InOrder a := (ho.run between).run later
  refine ⟨fun h => absurd h.1 (Nat.lt_irrefl 0), fun hnever => ?_, fun hused hreleased => ?_⟩
  · have hdead : ¬ a.Knows id := fun h => hnever (handedOut_of_knows hrun h)
    exact ⟨hdead, refuses_of_not_knows hdead⟩
  · have hdead : ¬ a.Knows id := not_knows_of_gone ho hused hreleased later
    refine ⟨hdead, refuses_of_not_knows hdead, fun op hmem => ?_⟩
    have hid : id ≠ 0 := Nat.ne_of_gt (handedOut_of_knows ho hused).1
    have hback : ((a.run [op])).Knows id := knows_of_handsOut hrun hmem hid
    have hnot := not_knows_of_gone ho hused hreleased (later ++ [op])
    rw [Agent.run_append] at hnot
    exact hnot hback

/-- A thread whose identifier has been disposed of is listed under another one from then on. -/
theorem disposed_identifier_stays_dead :
    let listing : Op := .command (.client 0) .allThreads
    let disposal : Op := .command (.client 0) (.disposeObjects [⟨1, 1⟩])
    let before := Past.agent ⟨[.spawnThread "worker"], {}, [.op listing]⟩
    let a := (before.run [disposal]).run [listing]
    before.handsOut listing = [1, 2] ∧ a.handsOut listing = [3, 2] ∧ 1 ∉ a.handsOut listing ∧
      (Agent.serve (.client 0) (.threadName 1) a).1 = .error .invalidThread := by
  intro listing disposal before a
  have hused : before.Knows 1 := by
    change (before.tracker.entries.get? 1).isSome
    decide +kernel
  have hreleased : ¬ (before.run [disposal]).Knows 1 := by
    change ¬ ((before.run [disposal]).tracker.entries.get? 1).isSome
    decide +kernel
  obtain ⟨-, -, hdead⟩ := dead_identifiers_stay_dead
    ⟨[.spawnThread "worker"], {}, [.op listing]⟩ [disposal] [listing] 1
  obtain ⟨-, hrefuses, hnever⟩ := hdead hused hreleased
  refine ⟨by decide +kernel, by decide +kernel, hnever listing, ?_⟩
  exact (hrefuses (.client 0) (.threadName 1) .invalidThread rfl (by decide +kernel)).1

end DebugAgent
