import DebugAgent.Proofs.Progress

/-!
# Callbacks as series of changes

A callback is processed in one of three ways: nothing could fire and it is not looked at, what it
says cannot be captured, or the requests of its kind fire by the rule and those that expire are
removed.  `Processed` says what each of them leaves behind, so that facts about callbacks are proved
case by case from it.
-/

namespace DebugAgent

open DebugAgent.Action Command
open Relation (ReflTransGen)

variable {a b : Agent}

/-! ### The way through the table -/

/-- The state after a captured callback has gone through the table: the table is the one of the
rule, and of the rest only the machine has changed. -/
structure Passed (seen : Agent) (kind : EventKind) (ctx : Context) (b : Agent) : Prop where
  evolves : Evolves seen b
  /-- Requests take note that they fire, and then those that expire are removed. -/
  removal : ∃ used, ((seen.expiring kind ctx).forM Registration.remove : Command Unit).perform
    ((seen.advance kind ctx).spend used) = (.ok (), b)
  table : b.requests.requests = seen.remaining kind ctx
  tracker : b.tracker = seen.tracker
  session : b.session = seen.session

/-- A callback is captured with the receiver of the running method if a request asks for it. -/
def Agent.wantsReceiver (a : Agent) (kind : EventKind) : Bool :=
  (a.requests.ofKind kind).any Request.wantsReceiver

/-- What processing a callback comes to. -/
inductive Processed (a : Agent) (c : Callback Handle) :
    Except (Stop ProtocolError) (Option Fired) × Agent → Prop where
  | skipped (hnone : a.requests.ofKind c.kind.eventKind = [])
      (hunrequested : Firing.unrequested c.kind.eventKind = []) : Processed a c (.ok none, a)
  | failed {stop b} (hcapture :
      (Capture.capture (a.wantsReceiver c.kind.eventKind) c).perform a = (.error stop, b)) :
      Processed a c (.error stop, b)
  | passed {ctx seen b} (hcapture :
      (Capture.capture (a.wantsReceiver c.kind.eventKind) c).perform a = (.ok ctx, seen))
      (hpassed : Passed seen c.kind.eventKind ctx b) :
      Processed a c (.ok (seen.firedIn? c.kind.eventKind ctx), b)

/-- A request that expires is in the table until it is removed. -/
theorem mem_of_expiring {kind : EventKind} {ctx : Context} {request : Request}
    (hmem : request ∈ a.expiring kind ctx) : request ∈ (a.advance kind ctx).requests.requests := by
  obtain ⟨hfired, -⟩ := List.mem_filter.mp hmem
  obtain ⟨before, hfiring, rfl⟩ := List.mem_map.mp hfired
  obtain ⟨hbefore, hkind, hfires⟩ := mem_firing.mp hfiring
  exact List.mem_map.mpr ⟨before, hbefore, if_pos (by simp [hkind, hfires])⟩

/-- Requests expire one by one. -/
theorem pairwise_expiring (hsorted : a.requests.requests.Pairwise (·.id < ·.id)) (kind : EventKind)
    (ctx : Context) : (a.expiring kind ctx).Pairwise (·.id ≠ ·.id) := by
  have hfired : ((a.firing kind ctx).map (Request.advance ctx)).Pairwise (·.id < ·.id) :=
    List.pairwise_map.mpr (firing_pairwise hsorted kind ctx)
  exact (hfired.filter _).imp Int.ne_of_lt

theorem processed (c : Callback Handle) (ho : Orderly a) :
    Processed a c ((Firing.process c).perform a) := by
  let kind := c.kind.eventKind
  have hlooks := (Capture.looks_capture (a.wantsReceiver kind) c).evolves ho
  simp only [Firing.process, perform_bind, perform_look]
  cases hskip : (a.requests.ofKind kind).isEmpty && (Firing.unrequested kind).isEmpty with
  | true =>
      obtain ⟨hnone, hunrequested⟩ := Bool.and_eq_true_iff.mp hskip
      exact .skipped (List.isEmpty_iff.mp hnone) (List.isEmpty_iff.mp hunrequested)
  | false =>
      rw [if_neg Bool.false_ne_true, perform_bind]
      cases hcapture : (Capture.capture (a.wantsReceiver kind) c).perform a with
      | mk captured seen =>
          have hseen : Orderly seen := ho.evolves (by rwa [hcapture] at hlooks)
          have hcaptured := hcapture
          rw [Agent.wantsReceiver] at hcapture
          rw [hcapture]
          cases captured with
          | error stop => exact .failed hcaptured
          | ok ctx =>
              obtain ⟨used, hpass⟩ := Firing.perform_pass hseen.refs hseen.sorted kind ctx
              have hchanges : Evolves seen ((seen.advance kind ctx).spend used) :=
                .tail (.single (.advance kind ctx)) (.machine (Vm.conserves_spend _ used))
              obtain ⟨b, hremoved, hremoves⟩ := perform_removes (hseen.evolves hchanges)
                (fun request hmem => ⟨request, mem_of_expiring hmem, rfl, rfl⟩)
                (pairwise_expiring hseen.sorted kind ctx)
              simp only [perform_bind, perform_look]
              rw [hpass]
              dsimp only
              rw [hremoves]
              refine .passed hcaptured ⟨hchanges.trans hremoved.evolves, ⟨used, hremoves⟩, ?_,
                hremoved.tracker, hremoved.session⟩
              exact hremoved.left.trans (filter_advance hseen.sorted)

/-! ### Answering a callback -/

namespace Agent

/-- What a native thread that is attached captures of a callback. -/
def captured (a : Agent) (caller : NativeThread) (c : Callback Handle) :
    Except (Stop ProtocolError) Context × Agent :=
  (Command.attach caller *> Capture.capture (a.wantsReceiver c.kind.eventKind) c).perform a

/-- The event set that a callback causes, if it causes one. -/
def fired? (a : Agent) (caller : NativeThread) (c : Callback Handle) : Option Fired :=
  match (answer caller (Firing.process c) a).1 with
  | .ok fired => fired
  | .error _ => none

end Agent

/-- What answering a callback comes to, before anything is sent. -/
inductive Answered (a : Agent) (caller : NativeThread) (c : Callback Handle) :
    Option Fired → Agent → Prop where
  | skipped (hnone : a.requests.ofKind c.kind.eventKind = [])
      (hunrequested : Firing.unrequested c.kind.eventKind = []) :
      Answered a caller c none (a.setVm (a.vm.attach caller).2)
  | failed {stop seen} (hcaptured : a.captured caller c = (.error stop, seen)) :
      Answered a caller c none seen
  | passed {ctx seen b} (hcaptured : a.captured caller c = (.ok ctx, seen))
      (hpassed : Passed seen c.kind.eventKind ctx b) :
      Answered a caller c (seen.firedIn? c.kind.eventKind ctx) b

theorem answered (caller : NativeThread) (c : Callback Handle) (ho : Orderly a) :
    Answered a caller c (a.fired? caller c) (answer caller (Firing.process c) a).2 := by
  cases hfails : a.vm.attachFails with
  | true =>
      have hrefused : a.captured caller c = (.error (.refused .internal), a) := by
        rw [Agent.captured, seqRight_eq_bind]
        simp [attach, perform_bind, see, hfails]
      rw [Agent.fired?, answer_of_not_attaching hfails]
      exact .failed hrefused
  | false =>
      let near := a.setVm (a.vm.attach caller).2
      have hattached : ∀ {α : Type} (x : Command α),
          (attach caller *> x).perform a = x.perform near := by
        intro α x
        rw [seqRight_eq_bind, perform_bind, perform_attach hfails]
      have hnear : Orderly near := by
        have hevolves := (Looks.attach trivial caller).evolves ho
        rw [perform_attach hfails] at hevolves
        exact ho.evolves hevolves
      have hprocessed := processed c hnear
      rw [← hattached] at hprocessed
      rw [Agent.fired?, answer]
      generalize (attach caller *> Firing.process c).perform a = outcome at hprocessed
      cases hprocessed with
      | skipped hnone hunrequested => exact .skipped hnone hunrequested
      | @failed stop b hcapture =>
          have hcaptured : a.captured caller c = (.error stop, b) := (hattached _).trans hcapture
          cases stop <;> exact .failed hcaptured
      | passed hcapture hpassed => exact .passed ((hattached _).trans hcapture) hpassed

/-- A callback is captured by looking at the machine. -/
theorem looks_captured (wanted : Bool) (caller : NativeThread) (c : Callback Handle) :
    Looks Control.Any (Command.attach caller *> Capture.capture wanted c) := by
  rw [seqRight_eq_bind]
  exact .bind (.attach trivial caller) fun _ => Capture.looks_capture wanted c

theorem evolves_captured (caller : NativeThread) (c : Callback Handle) (ho : Orderly a) :
    Evolves a (a.captured caller c).2 :=
  (looks_captured _ caller c).evolves ho

theorem captured_leaves (a : Agent) (caller : NativeThread) (c : Callback Handle) :
    (a.captured caller c).2.requests = a.requests ∧ (a.captured caller c).2.session = a.session :=
  (looks_captured _ caller c).leaves a

theorem Answered.evolves {caller : NativeThread} {c : Callback Handle} {fired : Option Fired}
    (h : Answered a caller c fired b) (ho : Orderly a) : Evolves a b := by
  have hcaptured := evolves_captured caller c ho
  cases h with
  | skipped => exact .single (.machine (Vm.frame_attach caller).conserves)
  | failed hfailed => rwa [hfailed] at hcaptured
  | passed hok hpassed =>
      rw [hok] at hcaptured
      exact hcaptured.trans hpassed.evolves

/-! ### Sending -/

theorem Agent.onCallback_eq (a : Agent) (caller : NativeThread) (c : Callback Handle) :
    a.onCallback caller c =
      match a.fired? caller c with
      | some fired => Delivery.send fired (answer caller (Firing.process c) a).2
      | none => (answer caller (Firing.process c) a).2 := by
  rw [Agent.onCallback, Agent.fired?]
  rcases answer caller (Firing.process c) a with ⟨_ | _ | _, _⟩ <;> rfl

theorem looks_applySuspension (target : SuspendTarget) :
    Looks Control.Any (Delivery.applySuspension target) := by
  cases target with
  | thread thread => exact Suspension.looks_suspend trivial .delivery thread
  | all => exact Suspension.looks_suspendAll trivial .delivery

theorem evolves_suspendFor (target : Option SuspendTarget) (ho : Orderly a) :
    Evolves a (Delivery.suspendFor target a) := by
  cases target with
  | none => exact .refl
  | some target =>
      exact evolves_answer (fun _ => (looks_applySuspension target).evolves) .delivery ho

theorem evolves_send (fired : Fired) (ho : Orderly a) : Evolves a (Delivery.send fired a) := by
  rw [Delivery.send]
  split
  · exact .refl
  · exact (evolves_suspendFor fired.suspend ho).tail (.session _)

theorem evolves_onCallback (caller : NativeThread) (c : Callback Handle) (ho : Orderly a) :
    Evolves a (a.onCallback caller c) := by
  have hanswered := (answered caller c ho).evolves ho
  rw [Agent.onCallback_eq]
  split
  · exact hanswered.trans (evolves_send _ (ho.evolves hanswered))
  · exact hanswered

/-- Threads that are stopped before a set is sent have nothing to do with requests or the session. -/
theorem suspendFor_leaves (target : Option SuspendTarget) (a : Agent) :
    (Delivery.suspendFor target a).requests = a.requests ∧
      (Delivery.suspendFor target a).session = a.session := by
  cases target with
  | none => exact ⟨rfl, rfl⟩
  | some target =>
      rw [Delivery.suspendFor, answer_snd]
      exact (Looks.bind (.attach trivial .delivery) fun _ => looks_applySuspension target).leaves a

theorem send_leaves (fired : Fired) (a : Agent) :
    (Delivery.send fired a).requests = a.requests ∧
      (Delivery.send fired a).session = a.session.map (Session.receive fired.events) := by
  obtain ⟨hrequests, hsession⟩ := suspendFor_leaves fired.suspend a
  rw [Delivery.send]
  split
  · rename_i hnone
    simp [hnone]
  · exact ⟨hrequests, congrArg (Option.map (Session.receive fired.events)) hsession⟩

/-! ### Callbacks of the machine -/

/-- The references that a callback carries are gone when it ends, and nothing else is. -/
theorem tidyChange_leave (c : Callback HeapId)
    (hcalled : Evolves (a.setVm (a.vm.enterCallback c).2) b) :
    TidyChange b (b.setVm (b.vm.leaveCallback c (a.vm.enterCallback c).1)) := by
  obtain ⟨hthread, hother⟩ := Vm.passing_enterCallback c a.vm
  have hages := ages_of_evolves hcalled
  exact .machine (Vm.conserves_leaveCallback c (fun h hh => (hthread h hh).ages hages)
    (fun h hh => (hother h hh).ages hages))

theorem evolves_deliver (caller : NativeThread) (c : Callback HeapId) (ho : Orderly a) :
    Evolves a (Agent.deliver caller c a).2 := by
  rw [Agent.deliver]
  split
  · have hentered : TidyChange a (a.setVm (a.vm.enterCallback c).2) :=
      .machine (Vm.conserves_of_touches (Vm.touch_enterCallback c a.vm) ho.refs)
    have hcalled := evolves_onCallback caller (a.vm.enterCallback c).1 (ho.change hentered.change)
    exact .head hentered (hcalled.tail (tidyChange_leave c hcalled))
  · exact .refl

end DebugAgent
