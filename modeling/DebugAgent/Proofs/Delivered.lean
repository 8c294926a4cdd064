import DebugAgent.Proofs.Gone
import DebugAgent.Proofs.Restart
import DebugAgent.Proofs.Suspending

/-!
# Event sets on their way to the client

A callback that fires requests has an event set for the session.  The threads that its policy names
are stopped first, by a native thread of the agent that does nothing else, and whatever comes of that
the set is handed to the session.  A client that listens gets the sets of all callbacks in their
order.

The policy `eventThread` goes by the identifier of the thread.  Where identifiers are good, it stops
the thread of the callback and no other.
-/

namespace DebugAgent

open DebugAgent.Action Command
open Relation (ReflTransGen)

/-- The threads that a policy stops for an event in a thread: this one, or all but the one that
delivers the event. -/
def SuspendPolicy.Covers (policy : SuspendPolicy) (delivering thread : Option HeapId)
    (other : HeapId) : Prop :=
  match policy with
  | .none => False
  | .eventThread => thread = some other
  | .all => delivering ≠ some other

variable {may : Control → Prop} {a b near : Agent} {caller : NativeThread} {c : Callback Handle}
  {fired : Fired}

/-! ### Threads that are left alone -/

/-- Without leave to stop or resume threads an agent leaves them alone. -/
theorem Move.leavesThreads (h : Move Control.Attaches a b) :
    a.vm.LeavesThreads (fun _ => False) b.vm := by
  cases h with
  | inspection h =>
      cases h with
      | glance h => exact Vm.leavesThreads_of_heap_eq h.leaves.1 _
      | attach _ caller => exact fun _ _ _ hthread => threadAt?_attach hthread caller
      | halt hmay | resume hmay => cases hmay
      | recount => exact Vm.leavesThreads_of_heap_eq rfl _
      | @enrol object tag htag hnew =>
          intro thread body _ hthread
          have htagged := Vm.threadAt?_setTagAt a.vm object a.tracker.nextId thread
          exact htagged.trans hthread
  | told h => cases h <;> exact Vm.leavesThreads_of_heap_eq rfl _
  | freeRef h =>
      obtain ⟨refs, heq⟩ := a.vm.deleteRef_eq .globalRef h
      exact Vm.leavesThreads_of_heap_eq (congrArg Vm.heap heq) _
  | holdRef | tracker | requests => exact Vm.leavesThreads_of_heap_eq rfl _

theorem leavesThreads_answer {α : Type} {x : Command α} (hx : x.Makes (Move Control.Attaches))
    (caller : NativeThread) (a : Agent) :
    a.vm.LeavesThreads (fun _ => False) (answer caller x a).2.vm := by
  have hboth : (attach caller >>= fun _ => x).Makes (Move Control.Attaches) :=
    makes_bind (@Looks.attach Control.Attaches rfl caller).moves fun _ => hx
  rw [answer_snd]
  exact hboth.preserves (P := fun b => a.vm.LeavesThreads (fun _ => False) b.vm)
    (fun h hleaves => hleaves.trans h.leavesThreads) fun _ _ _ hthread => hthread

/-! ### Attaching -/

/-- A native thread that is attached stays attached. -/
theorem Inspection.attached (h : Inspection may a b) {own : HeapId}
    (hown : a.vm.attached.get? caller = some own) : b.vm.attached.get? caller = some own := by
  cases h with
  | glance h =>
      exact (congrArg (Table.get? · caller) h.leaves.2.2).trans hown
  | attach _ other =>
      change (a.vm.attach other).2.attached.get? caller = some own
      rw [Vm.attach]
      split
      · exact hown
      · rename_i hnone
        have hother : caller ≠ other := by
          rintro rfl
          cases hnone.symm.trans hown
        simpa [Vm.allocate, Table.get?_insert, hother] using hown
  | halt _ h => cases h <;> exact hown
  | resume _ h => cases h; exact hown
  | recount | enrol => exact hown

/-! ### The thread of a callback -/

/-- Identifiers that are in use stay in use while the agent looks at the machine. -/
theorem Inspection.inUse (h : Inspection may a b) {id : ObjectId}
    (huse : (a.tracker.global? id).isSome) : (b.tracker.global? id).isSome := by
  cases h with
  | glance | attach | halt | resume => exact huse
  | recount hentry =>
      rw [Tracker.global?, Option.isSome_map] at huse ⊢
      exact Table.isSome_get?_insert huse
  | enrol =>
      rw [Tracker.global?, Option.isSome_map] at huse ⊢
      exact Table.isSome_get?_insert huse

theorem Sound.idsBounded (hs : Sound a) : IdsBounded a where
  pos := hs.nextId_pos
  bounded := fun hentry => ⟨(hs.inUse hentry).1, (hs.inUse hentry).2.1⟩
  counted := fun hentry => (hs.inUse hentry).2.2

/-- What is handed out is 0 for a null reference, and an identifier of an object otherwise. -/
theorem tracks_of_trackNew {h : Handle} {id : ObjectId}
    (hperform : (Tracking.trackNew h).perform a = (.ok id, b)) :
    (h.isNull ∧ id = 0) ∨ ∃ object, a.Tracks h id object b := by
  cases hnull : h.isNull with
  | true =>
      rw [Tracking.perform_trackNew_null hnull] at hperform
      cases hperform
      exact .inl ⟨rfl, rfl⟩
  | false =>
      rcases Vm.getTag_cases a.vm h with ⟨_ | cause, hstop⟩ | ⟨object, -, -, htarget, -⟩
      · simp [Tracking.trackNew, hnull, perform_bind, perform_call_refused hstop] at hperform
      · simp [Tracking.trackNew, hnull, perform_bind, perform_call_broken hstop] at hperform
      · exact .inr ⟨object, htarget, hperform⟩

/-- While the agent looks at the machine, identifiers designate what they did. -/
theorem Command.Looks.designates {α : Type} {x : Command α} (hx : Looks Control.Any x)
    (hs : Sound a) {id : ObjectId} {object : HeapId}
    (hnamed : a.tracker.target? a.vm id = some object) :
    (x.perform a).2.tracker.target? (x.perform a).2.vm id = some object := by
  have huse : ((x.perform a).2.tracker.global? id).isSome :=
    hx.makes.preserves (P := fun b => (b.tracker.global? id).isSome) (fun h => h.inUse)
      (Option.isSome_of_isSome_bind (Option.isSome_iff_exists.mpr ⟨_, hnamed⟩))
  exact hs.target?_of_inUse hnamed (hx.evolves hs.toOrderly).unfolds huse

/-- A callback is captured by a native thread that could be attached. -/
theorem perform_capture_of_captured {ctx : Context}
    (hcaptured : a.captured caller c = (.ok ctx, b)) :
    (Capture.capture (a.wantsReceiver c.kind.eventKind) c).perform
      (a.setVm (a.vm.attach caller).2) = (.ok ctx, b) := by
  rw [Agent.captured, seqRight_eq_bind, perform_bind] at hcaptured
  cases hfails : a.vm.attachFails with
  | true => simp [perform_bind, attach, see, hfails] at hcaptured
  | false => rwa [perform_attach hfails] at hcaptured

/-- A callback in a thread is captured by tracking the thread.  What is done after that looks at the
machine. -/
theorem tracked_of_captured {ctx : Context} (hcaptured : a.captured caller c = (.ok ctx, b))
    {h : Handle} (hthread : c.thread? = some h) :
    ∃ (seen : Agent) (rest : Command Context),
      (Tracking.trackNew h).perform (a.setVm (a.vm.attach caller).2) = (.ok ctx.threadId, seen) ∧
      ctx.thread = seen.vm.target? h ∧ Looks Control.Any rest ∧
      rest.perform seen = (.ok ctx, b) := by
  have hperform := perform_capture_of_captured hcaptured
  obtain ⟨rest, hcapture, hrest⟩ :=
    @Capture.capture_scene Control.Any (a.wantsReceiver c.kind.eventKind) c h hthread
  rw [hcapture, Capture.scene, bind_assoc, perform_bind] at hperform
  cases htrack : (Tracking.trackNew h).perform (a.setVm (a.vm.attach caller).2) with
  | mk outcome seen =>
      rw [htrack] at hperform
      cases outcome with
      | error stop => cases hperform
      | ok id =>
          obtain ⟨hlooks, hreturns⟩ := hrest ⟨id, seen.vm.target? h⟩
          have hlast : (rest ⟨id, seen.vm.target? h⟩).perform seen = (.ok ctx, b) := hperform
          obtain ⟨hid, hobject⟩ := hreturns seen ctx b hlast
          exact ⟨seen, _, by rw [hid], hobject, hlooks, hlast⟩

theorem threadId_of_no_thread {ctx : Context} (hcaptured : a.captured caller c = (.ok ctx, b))
    (hthread : c.thread? = none) : ctx.threadId = 0 := by
  cases c with
  | vmDeath =>
      cases (Prod.mk.inj (perform_capture_of_captured hcaptured)).1
      rfl
  | _ => cases hthread

/-- Where identifiers are good, a captured callback names its thread by one that designates it, or by
0 if the callback has no thread. -/
theorem named_captured (hs : Sound a) {ctx : Context}
    (hcaptured : a.captured caller c = (.ok ctx, b)) :
    (ctx.threadId = 0 ∧ c.thread?.bind a.vm.target? = none) ∨
      ∃ thread, c.thread?.bind a.vm.target? = some thread ∧
        b.tracker.target? b.vm ctx.threadId = some thread := by
  have hattached : Sound (a.setVm (a.vm.attach caller).2) :=
    hs.change (.machine (Vm.frame_attach caller).keeps)
  cases hthread : c.thread? with
  | none => exact .inl ⟨threadId_of_no_thread hcaptured hthread, rfl⟩
  | some h =>
      obtain ⟨seen, rest, htrack, -, hlooks, hlast⟩ := tracked_of_captured hcaptured hthread
      rcases tracks_of_trackNew htrack with ⟨hnull, hzero⟩ | ⟨thread, htracks⟩
      · exact .inl ⟨hzero, by simp [Vm.target?, hnull]⟩
      · have hseen : Sound seen := hattached.unfolds (htracks.unfolds hattached.toOrderly)
        have hkept := hlooks.designates hseen (hattached.target?_of_tracks htracks)
        rw [hlast] at hkept
        refine .inr ⟨thread, ?_, hkept⟩
        exact (target?_attach a.vm caller h).symm.trans htracks.1

/-! ### Stopping threads for an event set -/

/-- The threads that a policy covers are stopped, and no others change. -/
theorem stops_suspendFor (hb : a.vm.RefsBounded) (hids : IdsBounded a)
    (hgrant : a.vm.grants Capabilities.canSuspend) (hfails : a.vm.attachFails = false)
    (policy : SuspendPolicy) (id : ObjectId) :
    let after := Delivery.suspendFor (policy.target? id) a
    a.vm.StopsOnly (policy.Covers (after.vm.attached.get? .delivery) (a.tracker.target? a.vm id))
      after.vm := by
  let attached := a.setVm (a.vm.attach .delivery).2
  have hsuspend : ∀ target, Delivery.suspendFor (some target) a =
      ((Delivery.applySuspension target).perform attached).2 :=
    fun target => answer_snd_of_attaching hfails .delivery _
  have hattach : a.vm.LeavesThreads (fun _ => False) attached.vm :=
    fun _ _ _ hthread => threadAt?_attach hthread .delivery
  have hbounded : attached.vm.RefsBounded := Vm.bounded_attach hb .delivery
  have hgranted : attached.vm.grants Capabilities.canSuspend :=
    (grants_attach a.vm .delivery _).trans hgrant
  cases policy with
  | none => exact Vm.stopsOnly_of_heap_eq rfl fun _ hcovers => hcovers.elim
  | eventThread =>
      have hnamed : attached.tracker.target? attached.vm id = a.tracker.target? a.vm id := by
        have htarget : attached.vm.target? = a.vm.target? := funext (target?_attach a.vm .delivery)
        simp only [Tracker.target?, htarget]
        rfl
      rw [← hnamed]
      by_cases hzero : id = 0
      · subst hzero
        refine Vm.stopsOnly_of_heap_eq rfl fun thread hcovers => ?_
        rw [hnamed, target?_zero hids] at hcovers
        cases hcovers
      · rw [SuspendPolicy.target?, if_neg hzero, hsuspend]
        exact (Suspension.stops_suspend hbounded hgranted .delivery id).after hattach
  | all =>
      let own := (a.vm.attach .delivery).1
      have hown : attached.vm.attached.get? .delivery = some own :=
        Vm.attached_attach a.vm .delivery
      have hstays := (looks_applySuspension .all).makes.preserves
        (P := fun b => b.vm.attached.get? .delivery = some own) (fun h => h.attached) hown
      have hwhich : (· ≠ own) =
          SuspendPolicy.Covers .all (some own) (a.tracker.target? a.vm id) := by
        funext thread
        simp [SuspendPolicy.Covers, eq_comm]
      rw [SuspendPolicy.target?, hsuspend]
      dsimp only
      rw [hstays, ← hwhich]
      exact (Suspension.stops_suspendAll hbounded hgranted hown).after hattach

/-! ### Callbacks that fire -/

/-- Only a native thread that can be attached has its callbacks processed. -/
theorem attachFails_of_fired (hfired : a.fired? caller c = some fired) :
    a.vm.attachFails = false := by
  cases hfails : a.vm.attachFails with
  | false => rfl
  | true =>
      rw [Agent.fired?, answer_of_not_attaching hfails] at hfired
      cases hfired

/-- An event set is what a captured callback fires on its way through the table. -/
theorem firedIn_of_fired (ho : Orderly a) (hfired : a.fired? caller c = some fired) :
    ∃ ctx seen, a.captured caller c = (.ok ctx, seen) ∧
      Passed seen c.kind.eventKind ctx (answer caller (Firing.process c) a).2 ∧
      seen.firedIn? c.kind.eventKind ctx = some fired := by
  have hanswered := answered caller c ho
  generalize a.fired? caller c = outcome, (answer caller (Firing.process c) a).2 = after
    at hanswered hfired ⊢
  cases hanswered with
  | skipped | failed => cases hfired
  | @passed ctx seen _ hcaptured hpassed => exact ⟨ctx, seen, hcaptured, hpassed, hfired⟩

/-- An event set stops threads under its policy, for the thread of the context that was captured. -/
theorem passed_of_fired (ho : Orderly a) (hfired : a.fired? caller c = some fired) :
    ∃ ctx seen, a.captured caller c = (.ok ctx, seen) ∧
      Passed seen c.kind.eventKind ctx (answer caller (Firing.process c) a).2 ∧
      fired.suspend = fired.events.suspendPolicy.target? ctx.threadId := by
  obtain ⟨ctx, seen, hcaptured, hpassed, hin⟩ := firedIn_of_fired ho hfired
  refine ⟨ctx, seen, hcaptured, hpassed, ?_⟩
  rw [Agent.firedIn?, Firing.Pass.fired?] at hin
  split at hin
  · cases hin
  · cases hin
    rfl

/-- Where identifiers are good, the one that an event set goes by designates the thread of the
callback. -/
theorem named_of_passed (hs : Sound a) {ctx : Context} {seen : Agent}
    (hcaptured : a.captured caller c = (.ok ctx, seen))
    (hpassed : Passed seen c.kind.eventKind ctx b) :
    b.tracker.target? b.vm ctx.threadId = c.thread?.bind a.vm.target? := by
  have hseen : Sound seen := by
    have hevolves := evolves_captured caller c hs.toOrderly
    rw [hcaptured] at hevolves
    exact hs.unfolds hevolves.unfolds
  have hlater : Unfolds seen b := hpassed.evolves.unfolds
  rcases named_captured hs hcaptured with ⟨hzero, hnone⟩ | ⟨thread, hthread, htarget⟩
  · rw [hzero, hnone, target?_zero (hseen.unfolds hlater).idsBounded]
  · rw [hthread]
    refine hseen.target?_of_inUse htarget hlater ?_
    rw [hpassed.tracker]
    exact Option.isSome_of_isSome_bind (Option.isSome_iff_exists.mpr ⟨_, htarget⟩)

/-! ### Operations that call the agent back -/

namespace Vm

variable {vm : Vm}

theorem heap_enterCallback (c : Callback HeapId) (vm : Vm) :
    (vm.enterCallback c).2.heap = vm.heap := by
  cases c <;> rfl

end Vm

theorem calledBack?_deliver {happening : Callback HeapId} (hdelivers : a.vm.delivers happening)
    (caller : NativeThread) :
    a.calledBack? (.deliver caller happening) =
      some (a.setVm (a.vm.enterCallback happening).2, caller, (a.vm.enterCallback happening).1) :=
  if_pos hdelivers

/-- What an operation does to threads beside the callback in it is nothing. -/
theorem calledBack?_leaves (ho : Orderly b) {op : Op}
    (hcalled : b.calledBack? op = some (near, caller, c)) :
    Unfolds b near ∧ near.vm.heap = b.vm.heap ∧ near.session = b.session ∧
      (b.apply op).session = (near.onCallback caller c).session ∧
      (b.apply op).vm.heap = (near.onCallback caller c).vm.heap ∧
      (b.apply op).vm.attached = (near.onCallback caller c).vm.attached := by
  cases op with
  | callback =>
      cases hcalled
      exact ⟨.refl, rfl, rfl, rfl, rfl, rfl⟩
  | deliver native happening =>
      cases hdelivers : b.vm.delivers happening with
      | false => simp [Agent.calledBack?, hdelivers] at hcalled
      | true =>
          rw [calledBack?_deliver hdelivers] at hcalled
          cases hcalled
          have hentered : Change b (b.setVm (b.vm.enterCallback happening).2) :=
            .machine (Vm.conserves_of_touches (Vm.touch_enterCallback happening b.vm)
              ho.refs).toKeeps
          refine ⟨.single (.inl hentered), Vm.heap_enterCallback happening b.vm, rfl, ?_⟩
          rw [Agent.apply, Agent.deliver, hdelivers]
          obtain ⟨inCallback, refs, hleave⟩ := Vm.leaveCallback_leaves
            ((b.setVm (b.vm.enterCallback happening).2).onCallback caller
              (b.vm.enterCallback happening).1).vm happening (b.vm.enterCallback happening).1
          exact ⟨rfl, (congrArg Vm.heap hleave :), (congrArg Vm.attached hleave :)⟩
  | _ => cases hcalled

/-! ### What a callback does -/

/-- A callback that fires nothing has nothing to do with threads. -/
theorem leavesThreads_onCallback (hnone : near.fired? caller c = none) :
    near.vm.LeavesThreads (fun _ => False) (near.onCallback caller c).vm := by
  rw [Agent.onCallback_eq, hnone]
  exact leavesThreads_answer (Firing.moves_process c) caller near

/-- An event set is handed to the session after its threads have been stopped. -/
theorem send_of_open {s : Session} (hopen : a.session = some s) (fired : Fired) :
    Delivery.send fired a =
      { Delivery.suspendFor fired.suspend a with session := some (s.receive fired.events) } := by
  have hkept := (suspendFor_leaves fired.suspend a).2.trans hopen
  rw [Delivery.send, hopen]
  simp only [hkept, Option.map_some]

/-- A callback that fires requests stops the threads of its policy and hands over its event set,
whatever comes of the stopping. -/
theorem onCallback_of_fired {s : Session} (ho : InOrder near) (hopen : near.session = some s)
    (hgrant : near.vm.grants Capabilities.canSuspend) (hfired : near.fired? caller c = some fired) :
    let answered := (answer caller (Firing.process c) near).2
    let after := near.onCallback caller c
    after = { Delivery.suspendFor fired.suspend answered with
        session := some (s.receive fired.events) } ∧
      ∃ id, fired.suspend = fired.events.suspendPolicy.target? id ∧
        near.vm.StopsOnly (fired.events.suspendPolicy.Covers (after.vm.attached.get? .delivery)
          (answered.tracker.target? answered.vm id)) after.vm ∧
        (Sound near →
          answered.tracker.target? answered.vm id = c.thread?.bind near.vm.target?) := by
  intro answered after
  have hmoves : (Firing.process c).Makes (Move Control.Attaches) := Firing.moves_process c
  have hunfolds : Unfolds near answered :=
    ((DebugAgent.answered caller c ho.toOrderly).evolves ho.toOrderly).unfolds
  have hanswered : InOrder answered := ho.unfolds hunfolds
  have hgranted : answered.vm.grants Capabilities.canSuspend := by
    rwa [Vm.grants, Unfolds.capabilities ho.toOrderly hunfolds, ← Vm.grants]
  have hfails := attachFails_of_fired hfired
  have hworks : answered.vm.attachFails = false := by
    have hsame := hmoves.same (f := fun b => b.vm.attachFails) (fun h => h.attachFails)
      (near.setVm (near.vm.attach caller).2)
    rw [← answer_snd_of_attaching hfails] at hsame
    exact (hsame.trans (attachFails_attach near.vm caller)).trans hfails
  have hafter : after = { Delivery.suspendFor fired.suspend answered with
      session := some (s.receive fired.events) } := by
    refine (Agent.onCallback_eq near caller c).trans ?_
    rw [hfired]
    exact send_of_open ((session_answer hmoves caller near).trans hopen) fired
  obtain ⟨ctx, seen, hcaptured, hpassed, hsuspend⟩ := passed_of_fired ho.toOrderly hfired
  refine ⟨hafter, ctx.threadId, hsuspend, ?_, fun hs => named_of_passed hs hcaptured hpassed⟩
  have hstops := stops_suspendFor hanswered.refs hanswered.ids hgranted hworks
    fired.events.suspendPolicy ctx.threadId
  rw [← hsuspend] at hstops
  rw [hafter]
  exact hstops.after (leavesThreads_answer hmoves caller near)

/-- A client that listens gets, over any run, the event sets of the callbacks in their order: what it
has taken and what it can still take are the sets that were there before and those of the callbacks.
At every moment of the run, a callback that fires nothing leaves the threads alone.  One that fires
requests stops the threads that the policy of its set covers, changes no others, and then hands over
the set, whatever came of the stopping.  For an agent with a machine of its own, the event's thread
is the thread of the callback. -/
theorem sets_delivered_in_order (past : Past) {s : Session} (hopen : past.agent.session = some s)
    (hlistening : s.listening) (hgrant : past.agent.vm.grants Capabilities.canSuspend)
    (ops : List Op) (hcloses : ∀ op ∈ ops, op.closes = false) :
    let a := past.agent
    let b := a.run ops
    ∃ later, b.session = some later ∧ later.listening ∧
      a.taken ops ++ later.sets = s.sets ++ a.sent ops ∧
      ∀ op near caller c, b.calledBack? op = some (near, caller, c) →
        let after := b.apply op
        let answered := (answer caller (Firing.process c) near).2
        (near.fired? caller c = none →
          after.session = some later ∧ b.vm.LeavesThreads (fun _ => False) after.vm) ∧
        ∀ fired, near.fired? caller c = some fired →
          after.session = some (later.receive fired.events) ∧
          near.onCallback caller c = { Delivery.suspendFor fired.suspend answered with
            session := some (later.receive fired.events) } ∧
          ∃ id, fired.suspend = fired.events.suspendPolicy.target? id ∧
            b.vm.StopsOnly (fired.events.suspendPolicy.Covers (after.vm.attached.get? .delivery)
              (answered.tracker.target? answered.vm id)) after.vm ∧
            ((∃ operations : List Op, past.incidents = operations.map .op) →
              answered.tracker.target? answered.vm id = c.thread?.bind near.vm.target?) := by
  intro a b
  have ha : InOrder a := past.inOrder
  have hrun : Unfolds a b := unfolds_run ha.toOrderly ops
  have hb : InOrder b := ha.unfolds hrun
  obtain ⟨later, hlater, hstill, hstream⟩ := session_stream hopen hlistening hcloses
  refine ⟨later, hlater, hstill, hstream, fun op near caller c hcalled => ?_⟩
  obtain ⟨hunfolds, hheap, hsession, hsession', hheap', hattached⟩ :=
    calledBack?_leaves hb.toOrderly hcalled
  have hnear : near.session = some later := hsession.trans hlater
  have hgranted : near.vm.grants Capabilities.canSuspend := by
    rwa [Vm.grants, Unfolds.capabilities ha.toOrderly (hrun.trans hunfolds), ← Vm.grants]
  have hbefore : b.vm.LeavesThreads (fun _ => False) near.vm :=
    Vm.leavesThreads_of_heap_eq hheap _
  intro after answered
  refine ⟨fun hnone => ⟨?_, ?_⟩, fun fired hfired => ?_⟩
  · rw [hsession', session_onCallback, hnone]
    exact hnear
  · have hleaves := hbefore.trans (leavesThreads_onCallback hnone)
    exact hleaves.trans (Vm.leavesThreads_of_heap_eq hheap' _)
  · obtain ⟨heq, id, hsuspend, hstops, hnamed⟩ :=
      onCallback_of_fired (hb.unfolds hunfolds) hnear hgranted hfired
    refine ⟨?_, heq, id, hsuspend, ?_, fun hown => hnamed ?_⟩
    · rw [hsession', heq]
    · rw [hattached]
      exact (hstops.after hbefore).of_heap_eq hheap'
    · obtain ⟨operations, hincidents⟩ := hown
      have hreached : a = Agent.reached past.steps past.config operations := by
        rw [Agent.reached_eq, ← hincidents]
      have hsound : Sound a := hreached ▸ sound_reached past.steps past.config operations
      exact hsound.unfolds (hrun.trans hunfolds)

/-- A thread starts, which the client has asked to be told of, and stands still by the time that the
client is told. -/
theorem started_thread_stopped :
    let past : Past := ⟨[.spawnThread "main"], {},
      [.attach (.client 0) true, .command (.client 0) (.setEvent 6 .eventThread [])].map .op⟩
    let a := past.agent
    let start : Op := .deliver (.client 1) (.threadStart 9)
    (a.vm.threadAt? 9).isSome ∧
      (∃ (s : Session) (set : EventSet), a.session = some s ∧
        (a.apply start).session = some (s.receive set) ∧ set.suspendPolicy = .eventThread) ∧
      (a.apply start).vm.Stopped 9 := by
  intro past a start
  let near := a.setVm (a.vm.enterCallback (.threadStart 9)).2
  let c := (a.vm.enterCallback (.threadStart 9)).1
  obtain ⟨s, hopen⟩ : ∃ s, a.session = some s := Option.isSome_iff_exists.mp (by decide +kernel)
  have hlistening : s.listening := by
    have hsession : a.session.all Session.listening := by decide +kernel
    rwa [hopen] at hsession
  obtain ⟨later, hlater, -, -, hcallbacks⟩ := sets_delivered_in_order past hopen hlistening
    (by decide +kernel) [] (fun _ hmem => by cases hmem)
  have hdelivers : a.vm.delivers (.threadStart 9) := by decide +kernel
  have hcalled : (a.run []).calledBack? start = some (near, .client 1, c) :=
    calledBack?_deliver hdelivers (.client 1)
  have hfires : (near.fired? (.client 1) c).any fun fired =>
      fired.events.suspendPolicy = .eventThread := by decide +kernel
  obtain ⟨fired, hfired, hpolicy⟩ := Option.any_eq_true _ _ |>.mp hfires
  obtain ⟨hsession, -, id, -, hstops, hnamed⟩ :=
    (hcallbacks start near (.client 1) c hcalled).2 fired hfired
  refine ⟨by decide +kernel, ⟨later, fired.events, hlater, hsession, of_decide_eq_true hpolicy⟩, ?_⟩
  refine hstops.stopped 9 ?_
  rw [of_decide_eq_true hpolicy, hnamed ⟨_, rfl⟩]
  change c.thread?.bind near.vm.target? = some 9
  decide +kernel

/-- A thread that an earlier agent has tagged with an identifier that the new agent has given to
something else runs on after an event that should have stopped it. -/
theorem started_thread_runs_on :
    let past : Past := ⟨[.spawnThread "main"], {},
      [.op (.command (.client 0) .allThreads), .restart {},
        .op (.command (.client 0) .topLevelThreadGroups), .op (.attach (.client 0) true),
        .op (.command (.client 0) (.setEvent 6 .eventThread []))]⟩
    let a := past.agent
    let after := a.apply (.deliver (.client 1) (.threadStart 9))
    (after.session.any fun s => s.sets.any fun set => set.suspendPolicy = .eventThread) ∧
      a.vm.isLiveThread 9 ∧ ¬ after.vm.Stopped 9 := by
  intro past a after
  refine ⟨by decide +kernel, by decide +kernel, fun hstopped => ?_⟩
  have hruns : (after.vm.threadAt? 9).any fun body => body.suspendFailure.isNone &&
      !hasAny body.state ThreadState.terminated && !hasAny body.state ThreadState.suspended := by
    decide +kernel
  obtain ⟨body, hbody, hstate⟩ := Option.any_eq_true _ _ |>.mp hruns
  simp only [Bool.and_eq_true, Bool.not_eq_true'] at hstate
  have hsuspended := hstopped body hbody (Option.isNone_iff_eq_none.mp hstate.1.1) hstate.1.2
  rw [hstate.2] at hsuspended
  cases hsuspended

end DebugAgent
