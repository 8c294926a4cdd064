import DebugAgent.Proofs.Delivered
import DebugAgent.Proofs.Independence
import DebugAgent.Proofs.Wanted

/-!
# Step requests

A step request is for one thread, which the client names by an identifier.  What counts after that is
the thread and not the identifier: the registration holds a reference to the thread, and callbacks are
compared with it.  So the thread of a registered step request is always the one that its identifier
designated when the request was set, whatever has become of the identifier since.

Of a callback in its thread a step request looks at the point that the thread has reached.  It fires
if the step is complete there and its other filters accept, and then this point is where the next step
starts.
-/

namespace DebugAgent

open DebugAgent.Action Command Registration Tracking

variable {a b : Agent} {request : Request} {state : StepState} {op : Op} {object : HeapId}

/-! ### Filters for steps -/

/-- The step that a filter waits for. -/
def Filter.stepState? : Filter → Option StepState
  | .step state => some state
  | _ => none

/-- The step from another point on. -/
def StepState.startingAt (state : StepState) (start : StepPoint) : StepState := { state with start }

/-- The request has one step filter, which waits for this step. -/
def Request.StepsBy (request : Request) (state : StepState) : Prop :=
  request.filters.filterMap Filter.stepState? = [state]

theorem Filter.stepState?_eq_some {filter : Filter} :
    filter.stepState? = some state ↔ filter = .step state := by
  cases filter <;> simp [stepState?]

theorem Filter.stepThreadOf?_eq (filter : Filter) :
    stepThreadOf? filter = filter.stepState?.map StepState.thread := by
  cases filter <;> rfl

theorem filterMap_stepThreadOf? (filters : List Filter) :
    filters.filterMap stepThreadOf? =
      (filters.filterMap Filter.stepState?).map StepState.thread := by
  rw [List.map_filterMap, List.filterMap_congr fun filter _ => filter.stepThreadOf?_eq]

namespace Request.StepsBy

theorem threads (h : request.StepsBy state) :
    request.filters.filterMap stepThreadOf? = [state.thread] := by
  rw [filterMap_stepThreadOf?, h]
  rfl

theorem mem_iff (h : request.StepsBy state) {other : StepState} :
    .step other ∈ request.filters ↔ other = state := by
  rw [← List.mem_singleton, ← h]
  simp only [List.mem_filterMap, Filter.stepState?_eq_some, exists_eq_right]

/-- The next step starts at the point that this one has come to. -/
theorem advance (h : request.StepsBy state) {ctx : Context} {point : StepPoint}
    (hpoint : ctx.point? = some point) :
    (request.advance ctx).StepsBy (state.startingAt point) := by
  have hfilter : ∀ filter : Filter, (filter.advance ctx).stepState? =
      filter.stepState?.map fun state => state.startingAt point := by
    intro filter
    cases filter with
    | step state =>
        rw [Filter.advance, hpoint]
        rfl
    | _ => rfl
  rw [StepsBy, Request.advance, List.filterMap_map, Function.comp_def]
  simp only [hfilter]
  rw [← List.map_filterMap, h]
  rfl

end Request.StepsBy

/-- A request for steps that has what it needs waits for one step. -/
theorem stepsBy_of_needed {registration : Registration}
    (hneeded : needed .singleStep request.filters = .ok registration) :
    ∃ state, request.StepsBy state ∧ registration = ⟨none, (.singleStep, some state.thread)⟩ := by
  rcases (notification_of_needed hneeded).2 with ⟨hno, -⟩ | ⟨id, -, -, hid⟩
  · exact absurd rfl hno
  · have hregistration := registration_of_step hneeded hid
    rw [filterMap_stepThreadOf?] at hid
    obtain ⟨state, hstate, rfl⟩ := List.map_eq_singleton_iff.mp hid
    exact ⟨state, hstate, hregistration⟩

/-! ### The thread of a step request -/

namespace Agent

/-- The thread that the registration of a request holds a reference to. -/
def steppedThread? (a : Agent) (request : Request) : Option HeapId :=
  (a.requests.stepThread? request).bind a.vm.target?

/-- The thread in which an operation has the agent called back. -/
def threadIn? (a : Agent) (op : Op) : Option HeapId :=
  match a.calledBack? op with
  | some (near, _, c) => c.thread?.bind near.vm.target?
  | none => none

end Agent

theorem steppedThread?_eq (a : Agent) (request : Request) : a.steppedThread? request =
    (a.requests.notifications.get? request.registration.notification).bind a.threadOf := by
  rw [Agent.steppedThread?, RequestTable.stepThread?, Option.bind_assoc]
  rfl

/-- The thread of a step request is the one that its identifier designated. -/
theorem steppedThread?_of_designated {steps : List Vm.Setup} {config : Config} {ops : List Op}
    (hmem : request ∈ (Agent.reached steps config ops).requests.requests)
    (hkind : request.kind = .singleStep) (hsteps : request.StepsBy state)
    (hdesignated : Designated steps config ops state.thread object) :
    (Agent.reached steps config ops).steppedThread? request = some object := by
  have hmet := met_reached steps config ops
  have hn := needsKept_reached steps config ops
  obtain ⟨held, hheld⟩ :=
    (needed_of_forOne hmet hn).mpr ⟨rfl, request, hmem, hkind, hsteps.threads⟩
  have hneeded := hn request hmem
  rw [hkind] at hneeded
  have hregistration := registration_of_step hneeded hsteps.threads
  obtain ⟨thread, hthread⟩ := hmet.threadOf_eq_some hheld
  have hsame : thread = object := (designated_of_held hheld hthread).unique hdesignated
  rw [steppedThread?_eq, hregistration, hheld, Option.bind_some, hthread, hsame]

/-- As long as the agent keeps the notifications that it holds, the thread of a request stays the
same. -/
theorem steppedThread?_of_evolves (hs : Sound a) (hmet : ObligationsMet a) (h : Evolves a b)
    (hrequests : b.requests = a.requests) (request : Request) :
    b.steppedThread? request = a.steppedThread? request := by
  rw [steppedThread?_eq, steppedThread?_eq, hrequests]
  cases hheld : a.requests.notifications.get? request.registration.notification with
  | none => rfl
  | some held =>
      have hcarries := (evolves_met hs hmet h).2.1
      exact hcarries.threadOf hmet (hrequests ▸ hheld) hheld

/-! ### The thread of a callback -/

theorem target?_of_trackNew {h : Handle} {id : ObjectId} (hb : a.vm.RefsBounded)
    (hperform : (trackNew h).perform a = (.ok id, b)) : b.vm.target? h = a.vm.target? h := by
  rcases tracks_of_trackNew hperform with ⟨hnull, -⟩ | ⟨object, htarget, -⟩
  · simp [Vm.target?, hnull]
  · rcases trackNew_cases a h with ⟨stop, heq⟩ | heq | ⟨known, tag, -, ⟨_, _, -, heq⟩ | ⟨-, heq⟩⟩
    · cases heq.symm.trans hperform
    · cases heq.symm.trans hperform
      rfl
    · cases heq.symm.trans hperform
      rfl
    · cases heq.symm.trans hperform
      let tagged := a.vm.setTagAt known a.tracker.nextId
      have hbounded : tagged.RefsBounded := hb
      have hkept : tagged.target? h = some object := htarget
      exact (Vm.target?_newRef_of_some hbounded hkept .globalRef known).trans htarget.symm

/-- What is captured of a callback is in the thread that the callback carries. -/
theorem thread_of_captured {caller : NativeThread} {c : Callback Handle} {ctx : Context}
    (hb : a.vm.RefsBounded) (hcaptured : a.captured caller c = (.ok ctx, b)) :
    ctx.thread = c.thread?.bind a.vm.target? := by
  cases hthread : c.thread? with
  | none =>
      cases c with
      | vmDeath =>
          cases (Prod.mk.inj (perform_capture_of_captured hcaptured)).1
          rfl
      | _ => cases hthread
  | some h =>
      obtain ⟨seen, rest, htrack, hobject, -, -⟩ := tracked_of_captured hcaptured hthread
      have hbounded : (a.setVm (a.vm.attach caller).2).vm.RefsBounded :=
        Vm.bounded_attach hb caller
      rw [hobject, target?_of_trackNew hbounded htrack]
      exact target?_attach a.vm caller h

theorem thread_of_sighting (ho : Orderly a) {sighting : Sighting}
    (hsighting : a.sighting? op = some sighting) : sighting.ctx.thread = a.threadIn? op := by
  obtain ⟨kind, ctx, seen⟩ := sighting
  obtain ⟨near, caller, c, hcalled, hcaptured, -⟩ := Agent.sighting?_eq_some hsighting
  obtain ⟨hnear, -, -⟩ := calledBack ho hcalled
  rw [Agent.threadIn?, hcalled]
  exact thread_of_captured hnear.refs hcaptured

/-! ### What a step request accepts -/

/-- The filters of the request that wait for no step accept what is seen. -/
def Sighting.acceptsElse (sighting : Sighting) (request : Request) : Prop :=
  ∀ filter ∈ request.filters, filter.stepState? = none →
    filter.accepts sighting.seen.vm sighting.seen.tracker sighting.ctx
      (sighting.seen.requests.stepThread? request)

/-- A step request accepts what its thread does where the step is complete, if the other filters do. -/
theorem accepts_step_iff {sighting : Sighting} (hkind : request.kind = .singleStep)
    (hsteps : request.StepsBy state)
    (hthread : sighting.seen.steppedThread? request = some object) :
    sighting.accepts request ↔ sighting.kind = .singleStep ∧ sighting.ctx.thread = some object ∧
      (∃ point, sighting.ctx.point? = some point ∧ state.reaches point) ∧
        sighting.acceptsElse request := by
  obtain ⟨global, hglobal, htarget⟩ := Option.bind_eq_some_iff.mp hthread
  have hstep : (Filter.step state).accepts sighting.seen.vm sighting.seen.tracker sighting.ctx
      (sighting.seen.requests.stepThread? request) ↔ sighting.ctx.thread = some object ∧
        ∃ point, sighting.ctx.point? = some point ∧ state.reaches point := by
    rw [Filter.accepts, hglobal, Option.any_some, htarget, Bool.and_eq_true, and_comm,
      decide_eq_true_eq, Option.any_eq_true, eq_comm]
  rw [accepts_iff, hkind, Agent.requestFires, Request.fires, List.all_eq_true]
  constructor
  · rintro ⟨hsame, hall⟩
    obtain ⟨hin, hpoint⟩ := hstep.mp (hall _ (hsteps.mem_iff.mpr rfl))
    exact ⟨hsame.symm, hin, hpoint, fun filter hmem _ => hall filter hmem⟩
  · rintro ⟨hsame, hin, hpoint, helse⟩
    refine ⟨hsame.symm, fun filter hmem => ?_⟩
    cases hfilter : filter.stepState? with
    | none => exact helse filter hmem hfilter
    | some other =>
        obtain rfl := Filter.stepState?_eq_some.mp hfilter
        rw [hsteps.mem_iff.mp hmem]
        exact hstep.mpr ⟨hin, hpoint⟩

end DebugAgent
