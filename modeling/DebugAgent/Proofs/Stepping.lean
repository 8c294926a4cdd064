import DebugAgent.Proofs.ClassNames
import DebugAgent.Proofs.Cleared
import DebugAgent.Proofs.StepRequests
import Mathlib.Data.List.Chain

/-!
# Where steps stop

A step starts at the point where its thread stands when the request is set, and goes on from each
point at which the request fires.  Callbacks that it does not fire on do not move this point, whether
the step is not complete there or another filter rejects them.  So what one test of a step says about
two points holds of any two successive ones, over calls, returns and recursion, and a step that can
only go outwards never comes back.
-/

namespace DebugAgent

open DebugAgent.Action Command Registration Tracking

variable {a b : Agent} {request : Request} {state : StepState} {op : Op} {object : HeapId}
  {id : RequestId}

/-! ### Where a step starts -/

/-- Where a thread stands. -/
def Vm.standing? (vm : Vm) (thread : HeapId) : Option StepPoint :=
  match vm.threadAt? thread with
  | some { frames := frame :: rest, .. } =>
      some ⟨rest.length + 1, frame.method, vm.lineAt frame.method frame.location⟩
  | _ => none

/-! ### Commands that come to a result -/

/-- Where an action and what follows it come to a result, so does the action. -/
theorem Action.perform_bind_ok {σ ε α β : Type} {x : Action σ ε α} {f : α → Action σ ε β} {s t : σ}
    {r : β} (h : (x >>= f).perform s = (.ok r, t)) :
    ∃ first s', x.perform s = (.ok first, s') ∧ (f first).perform s' = (.ok r, t) := by
  rw [perform_bind] at h
  cases hx : x.perform s with
  | mk outcome s' =>
      rw [hx] at h
      cases outcome with
      | error stop => cases h
      | ok first => exact ⟨first, s', rfl, h⟩

theorem eq_ok_of_mapError {ε δ α : Type} {f : ε → δ} {result : Except ε α} {r : α}
    (h : result.mapError f = .ok r) : result = .ok r := by
  cases result with
  | error cause => cases h
  | ok value => exact congrArg Except.ok (Except.ok.inj h)

theorem ok_of_inspect {σ ε α : Type} {f : σ → Except ε α} {s t : σ} {r : α}
    (h : (Action.inspect f).perform s = (.ok r, t)) : f s = .ok r ∧ t = s := by
  obtain ⟨hresult, hsame⟩ := Prod.mk.inj h
  exact ⟨eq_ok_of_mapError hresult, hsame.symm⟩

theorem ok_of_ask {α : Type} {query : Vm → Except JvmtiError α} {r : α}
    (h : (ask query).perform a = (.ok r, b)) : query a.vm = .ok r ∧ b = a := by
  obtain ⟨hresult, hsame⟩ := ok_of_inspect h
  exact ⟨eq_ok_of_mapError hresult, hsame⟩

theorem ok_of_guard {condition : Bool} {cause : ProtocolError}
    (h : (Action.guard condition cause).perform a = (.ok (), b)) : b = a := by
  cases condition with
  | false => cases h
  | true =>
      cases h
      rfl

/-! ### Setting a step request -/

/-- Where a thread stands is told by the number of its frames and the topmost one. -/
theorem Vm.standing?_of_frames {vm : Vm} {h : Handle} {depth : Int} {method : MethodId}
    {index : CodeIndex} (htarget : vm.target? h = some object)
    (hcount : vm.frameCount h = .ok depth) (htop : vm.frameLocation h 0 = .ok (method, index)) :
    vm.standing? object = some ⟨depth, method, vm.lineAt method index⟩ := by
  rw [frameCount, threadOf, htarget, Option.bind_some] at hcount
  rw [frameLocation, threadOf, htarget, Option.bind_some] at htop
  cases hbody : vm.threadAt? object with
  | none =>
      rw [hbody] at hcount
      cases hcount
  | some body =>
      obtain ⟨name, threadState, daemon, group, frames, failure⟩ := body
      simp only [hbody, bind, Except.bind] at hcount htop
      split at hcount
      · cases hcount
      · cases hcount
        cases frames with
        | nil => cases htop
        | cons frame rest =>
            cases htop
            rw [standing?, hbody]
            rfl

namespace Registration

theorem standing?_of_startPoint {h : Handle} {start : StepPoint}
    (htarget : a.vm.target? h = some object)
    (hperform : (startPoint h).perform a = (.ok start, b)) : a.vm.standing? object = some start := by
  obtain ⟨frameDepth, near, hcount, hrest⟩ := perform_bind_ok hperform
  obtain ⟨⟨method, index⟩, last, hlocation, hlast⟩ := perform_bind_ok hrest
  obtain ⟨hcount, rfl⟩ := ok_of_ask hcount
  obtain ⟨hlocation, rfl⟩ := ok_of_ask hlocation
  cases hlast
  exact Vm.standing?_of_frames htarget hcount hlocation

/-- A step modifier becomes a filter that starts where the thread stands that it names. -/
theorem started_of_filterOf {kind : EventKind} {thread : ObjectId} {size : StepSize}
    {depth : StepDepth} (hb : a.vm.RefsBounded) {filter : Filter}
    (hperform : (filterOf kind (.step thread size depth)).perform a = (.ok filter, b)) :
    ∃ object start, a.tracker.target? a.vm thread = some object ∧
      a.vm.standing? object = some start ∧ filter = .step ⟨thread, size, depth, start⟩ := by
  obtain ⟨_, near, hguard, hthread⟩ := perform_bind_ok hperform
  obtain rfl := ok_of_guard hguard
  let x (h : Handle) : Command Filter := do return Filter.step ⟨thread, size, depth, ← startPoint h⟩
  have hthread : (withThread thread x).perform near = (.ok filter, b) := hthread
  rcases withThread_cases thread x hb with
    ⟨cause, vm, -, hrefused⟩ | ⟨object, hnamed, -, hlive⟩
  · cases hrefused.symm.trans hthread
  · obtain ⟨hresult, -⟩ := Prod.mk.inj (hlive.symm.trans hthread)
    let h := (near.vm.newLocal object).1
    have hinside : (x h).perform (near.opened object) = (.ok filter, _) := Prod.ext hresult rfl
    obtain ⟨start, last, hstart, hlast⟩ := perform_bind_ok hinside
    cases hlast
    have htarget : (near.opened object).vm.target? h = some object :=
      Vm.target?_newRef near.vm .localRef object
    have hstanding := standing?_of_startPoint htarget hstart
    exact ⟨object, start, hnamed, hstanding, rfl⟩

theorem started_of_filters {kind : EventKind} {thread : ObjectId} {size : StepSize}
    {depth : StepDepth} {modifiers : List EventModifier} (hmem : .step thread size depth ∈ modifiers)
    (hb : a.vm.RefsBounded) {filters : List Filter}
    (hperform : (modifiers.mapM (filterOf kind)).perform a = (.ok filters, b)) :
    ∃ object start, a.tracker.target? a.vm thread = some object ∧
      a.vm.standing? object = some start ∧ .step ⟨thread, size, depth, start⟩ ∈ filters := by
  induction modifiers generalizing a filters with
  | nil => cases hmem
  | cons modifier modifiers ih =>
      rw [List.mapM_cons] at hperform
      obtain ⟨filter, near, hfirst, hrest⟩ := perform_bind_ok hperform
      obtain ⟨others, last, hothers, hlast⟩ := perform_bind_ok hrest
      cases hlast
      rcases List.mem_cons.mp hmem with rfl | hmem
      · obtain ⟨object, start, hnamed, hstanding, rfl⟩ := started_of_filterOf hb hfirst
        exact ⟨object, start, hnamed, hstanding, List.mem_cons_self⟩
      · obtain ⟨used, hspent⟩ := spends_filterOf kind modifier a hb
        rw [hfirst] at hspent
        obtain rfl : near = a.spend used := hspent
        obtain ⟨object, start, hnamed, hstanding, hin⟩ :=
          ih hmem (Vm.bounded_spend hb used) hothers
        exact ⟨object, start, hnamed, hstanding, List.mem_cons_of_mem _ hin⟩

/-- What registering a request comes to, if it is not refused. -/
theorem registered_of_register {kind : EventKind} {policy : SuspendPolicy}
    {modifiers : List EventModifier} (hperform : (register kind policy modifiers).perform a =
      (.ok id, b)) :
    ∃ filters near registration,
      (modifiers.mapM (filterOf kind)).perform a = (.ok filters, near) ∧
      needed kind filters = .ok registration ∧
      ⟨id, kind, policy, filters, registration⟩ ∈ b.requests.requests := by
  obtain ⟨_, first, hguard, hlater⟩ := perform_bind_ok hperform
  obtain rfl := ok_of_guard hguard
  obtain ⟨filters, near, hfilters, hrest⟩ := perform_bind_ok hlater
  obtain ⟨registration, last, hresult, hasked⟩ := perform_bind_ok hrest
  obtain ⟨hneeded, rfl⟩ := ok_of_inspect hresult
  obtain ⟨_, acquired, hacquire, hadd⟩ := perform_bind_ok hasked
  obtain ⟨hid, rfl⟩ := Prod.mk.inj hadd
  cases hid
  exact ⟨filters, last, registration, hfilters, hneeded,
    List.mem_append_right _ List.mem_cons_self⟩

end Registration

theorem Vm.standing?_attach {vm : Vm} (hobject : (vm.tagAt? object).isSome)
    (caller : NativeThread) : (vm.attach caller).2.standing? object = vm.standing? object := by
  rw [tagAt?, Option.isSome_map] at hobject
  obtain ⟨held, hheld⟩ := Option.isSome_iff_exists.mp hobject
  have hthread : (vm.attach caller).2.threadAt? object = vm.threadAt? object := by
    rw [threadAt?_eq, threadAt?_eq, heap_attach hheld, hheld]
  have hline : (vm.attach caller).2.lineAt = vm.lineAt := by
    rw [attach]
    split <;> rfl
  rw [standing?, standing?, hthread, hline]

/-- A command to set a request that is answered with an identifier has registered the request. -/
theorem register_of_set {caller : NativeThread} {kind : EventKind} {policy : SuspendPolicy}
    {modifiers : List EventModifier}
    (hset : (Agent.serve caller (.setEvent kind.code policy modifiers) a).1 = .ok (.request id)) :
    (register kind policy modifiers).perform (a.setVm (a.vm.attach caller).2) =
      (.ok id, (Agent.serve caller (.setEvent kind.code policy modifiers) a).2) := by
  let near := a.setVm (a.vm.attach caller).2
  have hsame : (EventRequest.set kind.code policy modifiers).perform near =
      (register kind policy modifiers).perform near := by
    simp [EventRequest.set, perform_bind, Action.ofExcept, EventKind.ofCode_code]
  have hperform := perform_of_answered hset
  rw [ofClient, perform_map, hsame] at hperform
  obtain ⟨hreply, hafter⟩ := Prod.mk.inj hperform
  refine Prod.ext ?_ hafter
  generalize (register kind policy modifiers).perform near = outcome at hreply ⊢
  obtain ⟨stop | given, after⟩ := outcome
  · cases hreply
  · cases hreply
    rfl

/-- A step request that has been set starts where its thread stands. -/
theorem steps_of_set {caller : NativeThread} {policy : SuspendPolicy}
    {modifiers : List EventModifier} {thread : ObjectId} {size : StepSize} {depth : StepDepth}
    (hmem : .step thread size depth ∈ modifiers) (hs : Sound a)
    (hset : (Agent.serve caller (.setEvent EventKind.singleStep.code policy modifiers) a).1 =
      .ok (.request id)) :
    ∃ object start, a.tracker.target? a.vm thread = some object ∧
      a.vm.standing? object = some start ∧
      ∃ request ∈ (Agent.serve caller (.setEvent EventKind.singleStep.code policy modifiers)
          a).2.requests.requests,
        request.id = id ∧ request.kind = .singleStep ∧
          request.StepsBy ⟨thread, size, depth, start⟩ := by
  have hnear : Sound (a.setVm (a.vm.attach caller).2) :=
    hs.change (.machine (Vm.frame_attach caller).keeps)
  obtain ⟨filters, last, registration, hfilters, hneeded, hin⟩ :=
    registered_of_register (register_of_set hset)
  obtain ⟨object, start, hnamed, hstanding, hstarted⟩ :=
    started_of_filters hmem hnear.refs hfilters
  have hbefore : a.tracker.target? a.vm thread = some object := by
    have htarget := funext (target?_attach a.vm caller)
    rw [Tracker.target?, ← htarget]
    exact hnamed
  obtain ⟨global, hglobal, hheld⟩ := hs.target?_eq_some.mp hbefore
  have hobject := Option.isSome_of_eq_some (hs.carries hglobal hheld)
  obtain ⟨state, hsteps, -⟩ :=
    @stepsBy_of_needed ⟨id, .singleStep, policy, filters, registration⟩ _ hneeded
  rw [← hsteps.mem_iff.mp hstarted] at hsteps
  refine ⟨object, start, hbefore, ?_, _, hin, rfl, rfl, hsteps⟩
  exact (Vm.standing?_attach hobject caller).symm.trans hstanding

/-! ### Where a step stops -/

namespace Agent

/-- The point at which an operation fires a request, if it does. -/
def stop? (a : Agent) (id : RequestId) (op : Op) : Option StepPoint :=
  if id ∈ a.fires op then (a.sighting? op).bind fun sighting => sighting.ctx.point? else none

/-- The points at which a request fires in a run, the first one first. -/
def stops (a : Agent) (id : RequestId) : List Op → List StepPoint
  | [] => []
  | op :: ops => (a.stop? id op).toList ++ (a.apply op).stops id ops

end Agent

/-- A request under this identifier, if it is registered, is for this step. -/
def Agent.StepsUnder (a : Agent) (id : RequestId) (state : StepState) : Prop :=
  ∀ request, a.requests.find? id = some request →
    request.kind = .singleStep ∧ request.StepsBy state

section Stops

variable {steps : List Vm.Setup} {config : Config} {before : List Op}

/-- What a registered step request accepts. -/
theorem accepted_step (hunder : (Agent.reached steps config before).StepsUnder id state)
    (hdesignated : Designated steps config before state.thread object)
    (hfound : (Agent.reached steps config before).requests.find? id = some request)
    {sighting : Sighting} (hsighting : (Agent.reached steps config before).sighting? op = some sighting) :
    sighting.accepts request ↔ sighting.kind = .singleStep ∧
      (Agent.reached steps config before).threadIn? op = some object ∧
      (∃ point, sighting.ctx.point? = some point ∧ state.reaches point) ∧
        sighting.acceptsElse request := by
  have hs := sound_reached steps config before
  obtain ⟨hkind, hsteps⟩ := hunder request hfound
  obtain ⟨hmem, -⟩ := (find?_eq_some_iff hs.toOrderly).mp hfound
  have hthread := steppedThread?_of_designated hmem hkind hsteps hdesignated
  rw [← steppedThread?_of_evolves hs (met_reached steps config before)
    (evolves_of_sighting hs.toOrderly hsighting) (requests_of_sighting hs.toOrderly hsighting)]
    at hthread
  rw [accepts_step_iff hkind hsteps hthread, thread_of_sighting hs.toOrderly hsighting]

/-- A step request fires where its step is complete, and only in its thread. -/
theorem stop?_of_fires (hunder : (Agent.reached steps config before).StepsUnder id state)
    (hdesignated : Designated steps config before state.thread object) (hid : id ≠ 0)
    (hfires : id ∈ (Agent.reached steps config before).fires op) :
    (Agent.reached steps config before).threadIn? op = some object ∧
      ∃ point, (Agent.reached steps config before).stop? id op = some point ∧
        state.reaches point := by
  have ho := orderly_reached steps config before
  obtain ⟨request, hfound, haccepted⟩ := (mem_fires_iff ho op hid).mp hfires
  obtain ⟨ctx, hctx⟩ := Option.isSome_iff_exists.mp haccepted
  obtain ⟨sighting, hsighting, haccepts, -⟩ := accepted?_eq_some.mp hctx
  obtain ⟨-, hthread, ⟨point, hpoint, hreaches⟩, -⟩ :=
    (accepted_step hunder hdesignated hfound hsighting).mp haccepts
  refine ⟨hthread, point, ?_, hreaches⟩
  rw [Agent.stop?, if_pos hfires, hsighting]
  exact hpoint

theorem reaches_of_stop? (hunder : (Agent.reached steps config before).StepsUnder id state)
    (hdesignated : Designated steps config before state.thread object) (hid : id ≠ 0)
    {point : StepPoint} (hstop : (Agent.reached steps config before).stop? id op = some point) :
    state.reaches point := by
  have hfires : id ∈ (Agent.reached steps config before).fires op := by
    rw [Agent.stop?] at hstop
    split at hstop
    · assumption
    · cases hstop
  obtain ⟨-, other, hother, hreaches⟩ := stop?_of_fires hunder hdesignated hid hfires
  cases hother.symm.trans hstop
  exact hreaches

/-- The next step starts where this one stopped. -/
theorem stepsUnder_apply (hunder : (Agent.reached steps config before).StepsUnder id state)
    (hdesignated : Designated steps config before state.thread object) (hid : id ≠ 0)
    (hold : id < (Agent.reached steps config before).requests.nextId) (op : Op) :
    ((Agent.reached steps config before).apply op).StepsUnder id
      (state.startingAt
        (((Agent.reached steps config before).stop? id op).getD state.start)) := by
  have ho := orderly_reached steps config before
  intro later hlater
  obtain ⟨request, hfound, rfl⟩ := find?_before_apply ho hold hlater
  obtain ⟨hkind, hsteps⟩ := hunder request hfound
  have hfires : id ∈ (Agent.reached steps config before).fires op ↔
      ((Agent.reached steps config before).accepted? request op).isSome := by
    rw [mem_fires_iff ho op hid, hfound]
    simp
  cases haccepted : (Agent.reached steps config before).accepted? request op with
  | none =>
      rw [haccepted] at hfires
      rw [Agent.stop?, if_neg (by simp [hfires])]
      exact ⟨hkind, hsteps⟩
  | some ctx =>
      rw [haccepted] at hfires
      obtain ⟨-, point, hstop, -⟩ := stop?_of_fires hunder hdesignated hid (hfires.mpr rfl)
      obtain ⟨sighting, hsighting, -, rfl⟩ := accepted?_eq_some.mp haccepted
      have hpoint : sighting.ctx.point? = some point := by
        rwa [Agent.stop?, if_pos (hfires.mpr rfl), hsighting] at hstop
      rw [hstop]
      exact ⟨hkind, hsteps.advance hpoint⟩

/-- Each stop completes the step that started at the one before it. -/
theorem stops_isChain (hunder : (Agent.reached steps config before).StepsUnder id state)
    (hdesignated : Designated steps config before state.thread object) (hid : id ≠ 0)
    (hold : id < (Agent.reached steps config before).requests.nextId) (ops : List Op) :
    let a := Agent.reached steps config before
    let points := state.start :: a.stops id ops
    points.IsChain (fun p q => (state.startingAt p).reaches q) ∧
      (a.run ops).StepsUnder id (state.startingAt (points.getLast (List.cons_ne_nil _ _))) := by
  induction ops generalizing before state with
  | nil => exact ⟨.singleton _, hunder⟩
  | cons op ops ih =>
      intro a points
      have ho : Orderly a := orderly_reached steps config before
      have hreached : Agent.reached steps config (before ++ [op]) = a.apply op :=
        Agent.run_append _ before [op]
      have hlater := stepsUnder_apply hunder hdesignated hid hold op
      have hrest := @ih (state.startingAt ((a.stop? id op).getD state.start)) (before ++ [op])
        (hreached ▸ hlater) (hdesignated.mono (List.prefix_append _ _))
        (hreached ▸ Int.lt_of_lt_of_le hold (nextId_le_apply ho op))
      rw [hreached] at hrest
      cases hstop : a.stop? id op with
      | none =>
          rw [hstop] at hrest
          have hpoints : points = state.start :: (a.apply op).stops id ops := by
            simp [points, Agent.stops, hstop]
          simp only [hpoints]
          exact hrest
      | some point =>
          rw [hstop] at hrest
          have hpoints : points = state.start :: point :: (a.apply op).stops id ops := by
            simp [points, Agent.stops, hstop]
          have hreaches := reaches_of_stop? hunder hdesignated hid hstop
          simp only [hpoints]
          refine ⟨List.isChain_cons_cons.mpr ⟨hreaches, hrest.1⟩, ?_⟩
          rw [List.getLast_cons_cons]
          exact hrest.2

end Stops

/-! ### Two successive points -/

namespace StepState

variable {start point : StepPoint}

/-- Outside of the frame that it started in every step is complete. -/
theorem reaches_of_lt (h : point.frameDepth < start.frameDepth) :
    (state.startingAt start).reaches point := by
  have hne : point.frameDepth ≠ start.frameDepth := Int.ne_of_lt h
  rw [reaches, startingAt]
  cases state.depth <;> simp [h, hne]

theorem lt_of_reaches_out (hdepth : state.depth = .out)
    (h : (state.startingAt start).reaches point) : point.frameDepth < start.frameDepth := by
  simpa [reaches, startingAt, hdepth] using h

theorem le_of_reaches_over (hdepth : state.depth = .over)
    (h : (state.startingAt start).reaches point) : point.frameDepth ≤ start.frameDepth := by
  simp only [reaches, startingAt, hdepth, Bool.or_eq_true, Bool.and_eq_true,
    decide_eq_true_eq] at h
  omega

/-- Within a frame, a step by lines is complete at another line only, or where lines are not known. -/
theorem moved_of_reaches (hsize : state.size = .line) (h : (state.startingAt start).reaches point)
    (hsame : point.frameDepth = start.frameDepth) :
    point.method ≠ start.method ∨ point.line ≠ start.line ∨ point.line = none := by
  have hmoved : (state.startingAt start).moved point := by
    rw [reaches] at h
    simp only [startingAt] at h ⊢
    cases hdepth : state.depth with
    | out => simp [hdepth, hsame] at h
    | _ => simpa [hdepth, hsame] using h
  rw [moved] at hmoved
  simp only [startingAt, hsize] at hmoved
  simp only [Bool.or_eq_true, decide_eq_true_eq, Option.isNone_iff_eq_none] at hmoved
  tauto

end StepState

theorem returns_capture_singleStep (wantsReceiver : Bool) (thread : Handle) (method : MethodId)
    (index : CodeIndex) :
    (Capture.capture wantsReceiver (.singleStep thread method index)).Returns fun ctx =>
      ctx.position = some (method, index) :=
  returns_after fun _ => returns_after fun _ => returns_after fun _ => returns_after fun _ =>
    returns_after fun _ => returns_pure rfl

/-- A step whose number of frames is known is at a point. -/
theorem point?_of_sighting {sighting : Sighting} (hsighting : a.sighting? op = some sighting)
    (hkind : sighting.kind = .singleStep) {frameDepth : Int}
    (hdepth : sighting.ctx.frameDepth = some frameDepth) :
    ∃ point, sighting.ctx.point? = some point ∧ point.frameDepth = frameDepth := by
  obtain ⟨kind, ctx, seen⟩ := sighting
  obtain ⟨near, caller, c, -, hcaptured, rfl⟩ := Agent.sighting?_eq_some hsighting
  have hperform := perform_capture_of_captured hcaptured
  cases c with
  | singleStep thread method index =>
      have hposition := returns_capture_singleStep _ thread method index _ ctx seen hperform
      have hdepth : ctx.frameDepth = some frameDepth := hdepth
      refine ⟨⟨frameDepth, method, ctx.line⟩, ?_, rfl⟩
      rw [Context.point?, hdepth, hposition]
  | _ => cases hkind

/-- A step request starts where its thread stands, and then goes on from each point at which it fires.
Out of frames it only ever goes further out, over calls it never goes further in, and by lines it does
not stop on one line of a frame twice in a row.  It fires in its thread only, and always when that has
left the frame of the last point, if the other filters accept. -/
theorem step_stops_in_order (steps : List Vm.Setup) (config : Config) (before : List Op)
    {caller : NativeThread} {policy : SuspendPolicy} {modifiers : List EventModifier}
    {thread : ObjectId} {size : StepSize} {depth : StepDepth}
    (hstep : .step thread size depth ∈ modifiers)
    (hset : (Agent.serve caller (.setEvent EventKind.singleStep.code policy modifiers)
      (Agent.reached steps config before)).1 = .ok (.request id)) :
    let a := Agent.reached steps config before
    let set := a.apply (.command caller (.setEvent EventKind.singleStep.code policy modifiers))
    ∃ object start, a.tracker.target? a.vm thread = some object ∧
      a.vm.standing? object = some start ∧ ∀ ops,
        let b := set.run ops
        let points := start :: set.stops id ops
        (depth = .out → (points.map StepPoint.frameDepth).Pairwise (· > ·)) ∧
        (depth = .over → (points.map StepPoint.frameDepth).Pairwise (· ≥ ·)) ∧
        (size = .line → points.IsChain fun p q => q.frameDepth = p.frameDepth →
          q.method ≠ p.method ∨ q.line ≠ p.line ∨ q.line = none) ∧
        (∀ op, id ∈ b.fires op → b.threadIn? op = some object ∧ (b.stop? id op).isSome) ∧
        ∀ op request sighting frameDepth, b.requests.find? id = some request →
          b.sighting? op = some sighting → sighting.kind = .singleStep →
          b.threadIn? op = some object → sighting.ctx.frameDepth = some frameDepth →
          frameDepth < (points.getLast (List.cons_ne_nil _ _)).frameDepth →
          sighting.acceptsElse request → id ∈ b.fires op := by
  intro a set
  have hs : Sound a := sound_reached steps config before
  obtain ⟨object, start, hnamed, hstanding, request, hmem, hid, hkind, hsteps⟩ :=
    steps_of_set hstep hs hset
  refine ⟨object, start, hnamed, hstanding, ?_⟩
  intro ops b points
  -- the request, for as long as it is registered, in the run from its setting on
  let setting : Op := .command caller (.setEvent EventKind.singleStep.code policy modifiers)
  have hset : Agent.reached steps config (before ++ [setting]) = set :=
    Agent.run_append _ before [setting]
  have hb : Agent.reached steps config ((before ++ [setting]) ++ ops) = b := by
    rw [Agent.reached, Agent.run_append, ← Agent.reached, hset]
  have ho : Orderly set := hs.toOrderly.run [setting]
  have hpositive : 1 ≤ request.id :=
    ((idsPositive_reached steps config before).run hs.toOrderly [setting]).2 request hmem
  have hzero : id ≠ 0 := Int.ne_of_gt (hid ▸ hpositive)
  have hunder : set.StepsUnder id ⟨thread, size, depth, start⟩ := by
    intro other hfound
    obtain ⟨hin, hsame⟩ := (find?_eq_some_iff ho).mp hfound
    rw [eq_of_id_eq ho hmem hin (hsame.trans hid.symm)]
    exact ⟨hkind, hsteps⟩
  have hdesignated : Designated steps config (before ++ [setting]) thread object :=
    ⟨before, List.prefix_append _ _, hnamed⟩
  rw [← hset] at hunder
  obtain ⟨hchain, hlater⟩ := stops_isChain hunder hdesignated hzero
    (hset ▸ hid ▸ ho.fresh request hmem) ops
  rw [hset] at hchain hlater
  have hdesignated' : Designated steps config ((before ++ [setting]) ++ ops) thread object :=
    hdesignated.mono (List.prefix_append _ _)
  have hlast : b.StepsUnder id _ := hlater
  rw [← hb] at hlast
  refine ⟨fun hout => ?_, fun hover => ?_, fun hline => ?_, fun op hfires => ?_, ?_⟩
  · have hdepths : points.IsChain fun p q => p.frameDepth > q.frameDepth :=
      hchain.imp fun p q h => StepState.lt_of_reaches_out hout h
    exact List.isChain_iff_pairwise.mp ((List.isChain_map StepPoint.frameDepth).mpr hdepths)
  · have hdepths : points.IsChain fun p q => p.frameDepth ≥ q.frameDepth :=
      hchain.imp fun p q h => StepState.le_of_reaches_over hover h
    exact List.isChain_iff_pairwise.mp ((List.isChain_map StepPoint.frameDepth).mpr hdepths)
  · exact hchain.imp fun p q h => StepState.moved_of_reaches hline h
  · rw [← hb] at hfires ⊢
    obtain ⟨hthread, point, hpoint, -⟩ := stop?_of_fires hlast hdesignated' hzero hfires
    exact ⟨hthread, Option.isSome_of_eq_some hpoint⟩
  · intro op request sighting frameDepth hfound hsighting hstepping hthread hdepth hlower helse
    obtain ⟨point, hpoint, rfl⟩ := point?_of_sighting hsighting hstepping hdepth
    rw [← hb] at hfound hsighting hthread ⊢
    have haccepts := (accepted_step hlast hdesignated' hfound hsighting).mpr
      ⟨hstepping, hthread, ⟨point, hpoint, StepState.reaches_of_lt hlower⟩, helse⟩
    refine (mem_fires_iff (orderly_reached steps config _) op hzero).mpr ⟨request, hfound, ?_⟩
    exact Option.isSome_of_eq_some (accepted?_eq_some.mpr ⟨sighting, hsighting, haccepts, rfl⟩)

/-- A step over a call, with the callback in the callee rejected, and then out of the first frame. -/
theorem step_over_call_and_return :
    let setting : List Op := [.command (.client 0) .allThreads]
    let modifiers : List EventModifier := [.step 1 .min .over]
    let a := Agent.reached Past.twoThreads.steps {} setting
    let set := a.apply (.command (.client 0) (.setEvent 1 .none modifiers))
    let step : Op := .deliver (.client 1) (.singleStep 10 0x1000 6)
    let ops : List Op := [.setup (.pushFrame 10 0x1000 0), step, .setup (.popFrame 10), step,
      .setup (.popFrame 10), step]
    (Agent.serve (.client 0) (.setEvent 1 .none modifiers) a).1 = .ok (.request 1) ∧
      (set.stops 1 ops).map StepPoint.frameDepth = [1, 0] ∧
      ∃ start, a.vm.standing? 10 = some start ∧
        ((start :: set.stops 1 ops).map StepPoint.frameDepth).Pairwise (· ≥ ·) := by
  intro setting modifiers a set step ops
  have hset : (Agent.serve (.client 0) (.setEvent 1 .none modifiers) a).1 = .ok (.request 1) := by
    decide +kernel
  obtain ⟨object, start, hnamed, hstanding, hstops⟩ := step_stops_in_order Past.twoThreads.steps {}
    setting (List.mem_singleton.mpr rfl : EventModifier.step 1 .min .over ∈ modifiers) hset
  have hthread : a.tracker.target? a.vm 1 = some 10 := by decide +kernel
  cases hnamed.symm.trans hthread
  exact ⟨hset, by decide +kernel, start, hstanding, (hstops ops).2.1 rfl⟩

end DebugAgent
