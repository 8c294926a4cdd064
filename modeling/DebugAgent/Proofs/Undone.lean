import DebugAgent.Proofs.Answers
import DebugAgent.Proofs.Balance

/-!
# Requests that are refused

Setting a request can fail at many points: at a modifier, at the breakpoint, at the thread of a step
and at the notification, which comes last.  By then a breakpoint may be set and a reference to the
thread made.  Wherever it fails, what was done before is undone: the agent is left as it was, down to
the order of its tables, and the machine holds the references that it held.
-/

namespace DebugAgent

open DebugAgent.Action Command Registration
open Relation (ReflTransGen)

variable {may : Control → Prop} {α β : Type} {a b c : Agent}

/-! ### States that differ in nothing that the agent relies on -/

/-- The agent's books are the same, and the machine has lost nothing that the agent relies on and has
got no new global reference. -/
structure Unmoved (a b : Agent) : Prop where
  conserves : a.vm.Conserves b.vm
  requests : b.requests = a.requests
  tracker : b.tracker = a.tracker

namespace Unmoved

theorem setVm {vm : Vm} (hconserves : a.vm.Conserves vm) : Unmoved a (a.setVm vm) :=
  ⟨hconserves, rfl, rfl⟩

theorem refl (a : Agent) : Unmoved a a := ⟨.refl a.vm, rfl, rfl⟩

theorem trans (h : Unmoved a b) (h' : Unmoved b c) : Unmoved a c where
  conserves := h.conserves.trans h'.conserves
  requests := h'.requests.trans h.requests
  tracker := h'.tracker.trans h.tracker

theorem orderly (h : Unmoved a b) (ho : Orderly a) : Orderly b where
  refs := h.conserves.toAges.bounded ho.refs
  counts := fun position => h.requests ▸ ho.counts position
  sorted := h.requests ▸ ho.sorted
  fresh := h.requests ▸ ho.fresh

end Unmoved

/-- The global references of two machines are the same, and refer to the same objects. -/
def Vm.SameGlobals (vm vm' : Vm) : Prop :=
  ∀ raw object, vm.refs.get? raw = some ⟨object, .globalRef⟩ ↔
    vm'.refs.get? raw = some ⟨object, .globalRef⟩

theorem Vm.SameGlobals.globalCount {vm vm' : Vm} (hsame : vm.SameGlobals vm') :
    vm'.globalCount = vm.globalCount :=
  refCount_congr hsame

/-- A machine that keeps the global references of another and makes none has the same ones. -/
theorem Vm.Conserves.sameGlobals {vm vm' : Vm} (hconserves : vm.Conserves vm')
    (hpos : vm.RefsPositive) : vm.SameGlobals vm' := by
  refine fun raw object => ⟨fun hold => ?_, hconserves.globals_old⟩
  have hne : raw ≠ 0 := Nat.ne_of_gt (hpos raw _ hold)
  exact (@hconserves.globals ⟨raw⟩ object ⟨by simpa [Handle.isNull] using hne, hold⟩).get?

/-! ### Commands that look and hand out nothing -/

/-- An inspection makes no global reference, unless an object becomes known. -/
theorem Inspection.conserves (h : Inspection may a b) (hb : a.vm.RefsBounded) :
    a.vm.Conserves b.vm ∧ b.tracker.nextId = a.tracker.nextId ∨ ∃ object, b = a.enrol object := by
  cases h with
  | glance h => exact .inl ⟨h.touch.conserves hb, rfl⟩
  | attach _ caller => exact .inl ⟨(Vm.frame_attach caller).conserves, rfl⟩
  | halt _ h => exact .inl ⟨h.touch.conserves hb, rfl⟩
  | resume _ h => exact .inl ⟨h.touch.conserves hb, rfl⟩
  | recount hentry => exact .inl ⟨.refl a.vm, rfl⟩
  | @enrol object tag htag hnew => exact .inr ⟨object, rfl⟩

/-- As long as no new identifier is handed out, no global reference is made. -/
theorem conserves_of_inspections (ho : Orderly a) (h : ReflTransGen (Inspection may) a b) :
    a.tracker.nextId ≤ b.tracker.nextId ∧
      (b.tracker.nextId = a.tracker.nextId → a.vm.Conserves b.vm) := by
  induction h with
  | refl => exact ⟨Nat.le_refl _, fun _ => .refl a.vm⟩
  | tail hinspections hlast ih =>
      obtain ⟨hle, hconserves⟩ := ih
      have hb := (ho.evolves (evolves_of_inspections ho hinspections)).refs
      rcases hlast.conserves hb with ⟨hstep, hsame⟩ | ⟨object, rfl⟩
      · rw [hsame]
        exact ⟨hle, fun heq => (hconserves heq).trans hstep⟩
      · have hlt := Nat.lt_succ_of_le hle
        exact ⟨Nat.le_of_lt hlt, fun heq => absurd heq (Nat.ne_of_gt hlt)⟩

theorem Command.Looks.unmoved {x : Command α} (hx : Looks Control.Any x) (ho : Orderly a)
    (htracker : (x.perform a).2.tracker = a.tracker) : Unmoved a (x.perform a).2 where
  conserves := (conserves_of_inspections ho (hx.makes a)).2 (congrArg Tracker.nextId htracker)
  requests := (hx.leaves a).1
  tracker := htracker

/-! ### Commands that undo what they did -/

/-- Wherever the command fails, it leaves the agent as it was. -/
def Unwinds (x : Command α) : Prop :=
  ∀ a, Orderly a → ∀ stop b, x.perform a = (.error stop, b) → Unmoved a b

/-- What comes first does nothing that would have to be undone. -/
theorem unwinds_after {x : Command α} {f : α → Command β}
    (hx : ∀ a, Orderly a → Unmoved a (x.perform a).2) (hf : ∀ r, Unwinds (f r)) :
    Unwinds (x >>= f) := by
  intro a ho stop b hfails
  have hfirst := hx a ho
  rcases perform_bind_error hfails with hstops | ⟨r, near, hperform, hlast⟩
  · rwa [hstops] at hfirst
  · rw [hperform] at hfirst
    exact hfirst.trans (hf r near (hfirst.orderly ho) stop b hlast)

theorem unwinds_map (f : α → β) {x : Command α} (hx : Unwinds x) : Unwinds (f <$> x) := by
  intro a ho stop b hfails
  have hundone := hx a ho
  rw [perform_map] at hfails
  cases hperform : x.perform a with
  | mk result near =>
      rw [hperform] at hfails
      cases result with
      | ok r => cases hfails
      | error cause =>
          cases hfails
          exact hundone _ _ hperform

/-- Once a registration has got all that it needs, the request is in the table. -/
theorem unwinds_register (kind : EventKind) (policy : SuspendPolicy)
    (modifiers : List EventModifier) : Unwinds (register kind policy modifiers) := by
  refine unwinds_after (fun a ho => (looks_guard _ _).unmoved ho (keepsIds_guard _ _ a)) fun _ => ?_
  have hfilters : KeepsIds (modifiers.mapM (filterOf kind)) :=
    keepsIds_mapM (keepsIds_filterOf kind) modifiers
  refine unwinds_after (fun a ho =>
    (looks_mapM (looks_filterOf kind) modifiers).unmoved ho (hfilters a)) fun filters => ?_
  refine unwinds_after (fun a ho => (looks_ofExcept _).unmoved ho (keepsIds_inspect _ a))
    fun registration => ?_
  intro a ho stop b hfails
  rcases acquire_cases registration ho.refs ho.counts with
    ⟨cause, vm, hconserves, hacquire⟩ | ⟨_, c, -, -, -, hacquire⟩
  · rw [perform_bind, hacquire] at hfails
    cases hfails
    exact .setVm hconserves
  · rw [perform_bind, hacquire] at hfails
    cases hfails

theorem unwinds_set (kindCode : Nat) (policy : SuspendPolicy) (modifiers : List EventModifier) :
    Unwinds (EventRequest.set kindCode policy modifiers) :=
  unwinds_after (fun a ho => (looks_ofExcept _).unmoved ho (keepsIds_inspect _ a)) fun kind =>
    unwinds_register kind policy modifiers

theorem unwinds_opening (canDeliver : Bool) : Unwinds (Agent.opening canDeliver) := by
  intro a ho stop b hfails
  rcases opening_cases canDeliver ho.refs with
    ⟨cause, vm, hconserves, hopening⟩ | ⟨-, c, -, -, hopening⟩
  · rw [hopening] at hfails
    cases hfails
    exact .setVm hconserves
  · rw [hopening] at hfails
    cases hfails

/-- A command that has no answer has failed, or its native thread could not be attached. -/
theorem perform_of_answer_error {x : Command α} {caller : NativeThread} {cause : ProtocolError}
    (hfails : answer caller x a = (.error cause, b)) :
    ∃ stop, (attach caller >>= fun _ => x).perform a = (.error stop, b) := by
  rw [Command.answer, seqRight_eq_bind] at hfails
  generalize (attach caller >>= fun _ => x).perform a = outcome at hfails ⊢
  obtain ⟨(cause | _) | r, c⟩ := outcome
  · cases hfails
    exact ⟨_, rfl⟩
  · cases hfails
    exact ⟨_, rfl⟩
  · cases hfails

/-- Attaching the native thread is all that is left of a command that undoes what it did. -/
theorem Unwinds.answer {x : Command α} (hx : Unwinds x) (ho : Orderly a) {caller : NativeThread}
    {cause : ProtocolError} (hfails : answer caller x a = (.error cause, b)) : Unmoved a b := by
  have hboth : Unwinds (attach caller >>= fun _ => x) :=
    unwinds_after (fun a ho => (Looks.attach trivial caller).unmoved ho (keepsIds_attach caller a))
      fun _ => hx
  obtain ⟨stop, hperform⟩ := perform_of_answer_error hfails
  exact hboth a ho stop b hperform

/-! ### Refused requests -/

/-- A request that is refused, for whatever reason and at whatever step, has no effect: the table of
requests with its identifiers and counts, what the machine is told to call back for, the identifiers
in use and the references of the machine are what they were. -/
theorem refused_request_undone (past : Past) (caller : NativeThread) (kindCode : Nat)
    (policy : SuspendPolicy) (modifiers : List EventModifier) {cause : ProtocolError} {b : Agent}
    (hrefused : Agent.serve caller (.setEvent kindCode policy modifiers) past.agent =
      (.error cause, b)) :
    let a := past.agent
    b.requests = a.requests ∧ b.vm.breakpoints = a.vm.breakpoints ∧
      b.vm.notifications = a.vm.notifications ∧ b.tracker = a.tracker ∧
      b.vm.localCount = a.vm.localCount ∧ b.vm.globalCount = a.vm.globalCount := by
  intro a
  have ho : InOrder a := past.inOrder
  have hset : Unwinds (Reply.request <$> EventRequest.set kindCode policy modifiers) :=
    unwinds_map _ (unwinds_set kindCode policy modifiers)
  have hunmoved : Unmoved a b := hset.answer ho.toOrderly hrefused
  have hsettled : Agent.Settled a b := by
    have hserved := Agent.settled_serve caller (.setEvent kindCode policy modifiers) ho.refs
    rwa [hrefused] at hserved
  exact ⟨hunmoved.requests, hunmoved.conserves.breakpoints, hunmoved.conserves.notifications,
    hunmoved.tracker, hsettled.restored.locals,
    (hunmoved.conserves.sameGlobals past.refsPositive).globalCount⟩

/-- A step is refused by a machine that cannot tell of steps.  By then the reference to its thread has
been made, and it is given up. -/
theorem refused_step_undone :
    let past : Past := ⟨[.defineClass "LMain;",
        .addMethod 9 { name := "main", signature := "()V" }, .spawnThread "worker",
        .pushFrame 10 4096 0],
      { capabilities := { canGenerateSingleStepEvents := false } },
      [.op (.command (.client 0) .allThreads)]⟩
    let a := past.agent
    let outcome := Agent.serve (.client 0) (.setEvent 1 .none [.step 1 .min .into]) a
    outcome.1 = .error .notImplemented ∧ outcome.2.requests = a.requests ∧
      outcome.2.vm.globalCount = a.vm.globalCount ∧ a.vm.globalCount = 2 := by
  intro past a outcome
  have hanswer : outcome.1 = .error .notImplemented := by decide +kernel
  have hrefused : outcome = (.error .notImplemented, outcome.2) := by rw [← hanswer]
  obtain ⟨hrequests, -, -, -, -, hglobals⟩ :=
    refused_request_undone past (.client 0) 1 .none [.step 1 .min .into] hrefused
  exact ⟨hanswer, hrequests, hglobals, by decide +kernel⟩

end DebugAgent
