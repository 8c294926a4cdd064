import DebugAgent.Proofs.Evolution

/-!
# Counting requests

A request is registered with what its filters need, and it needs the same as long as it is
registered.  The table of requests changes in three ways: a request is added at its end, requests
that fire are advanced in place, and one request is removed.
-/

namespace DebugAgent

open Registration

/-! ### What advanced filters need -/

namespace Filter

theorem positionOf?_advance (ctx : Context) (filter : Filter) :
    positionOf? (filter.advance ctx) = positionOf? filter := by
  cases filter with
  | step state =>
      unfold Filter.advance
      dsimp only
      split <;> rfl
  | _ => rfl

theorem stepThreadOf?_advance (ctx : Context) (filter : Filter) :
    stepThreadOf? (filter.advance ctx) = stepThreadOf? filter := by
  cases filter with
  | step state =>
      unfold Filter.advance
      dsimp only
      split <;> rfl
  | _ => rfl

end Filter

theorem needed_advance (kind : EventKind) (ctx : Context) (filters : List Filter) :
    needed kind (filters.map (Filter.advance ctx)) = needed kind filters := by
  have hpositions :
      (filters.map (Filter.advance ctx)).filterMap positionOf? = filters.filterMap positionOf? := by
    rw [List.filterMap_map]
    exact congrArg (filters.filterMap ·) (funext (Filter.positionOf?_advance ctx))
  have hthreads :
      (filters.map (Filter.advance ctx)).filterMap stepThreadOf? =
        filters.filterMap stepThreadOf? := by
    rw [List.filterMap_map]
    exact congrArg (filters.filterMap ·) (funext (Filter.stepThreadOf?_advance ctx))
  simp only [needed]
  rw [hpositions, hthreads]

/-- What a request needs, kind by kind. -/
inductive Needed (kind : EventKind) (filters : List Filter) (callback : CallbackKind) :
    Registration → Prop where
  | breakpoint {position} (hkind : kind = .breakpoint)
      (hposition : filters.filterMap positionOf? = [position]) :
      Needed kind filters callback ⟨some position, (callback, none)⟩
  | step {thread} (hkind : kind = .singleStep)
      (hthread : filters.filterMap stepThreadOf? = [thread]) :
      Needed kind filters callback ⟨none, (callback, some thread)⟩
  | other (hbreakpoint : kind ≠ .breakpoint) (hstep : kind ≠ .singleStep) :
      Needed kind filters callback ⟨none, (callback, none)⟩

theorem needed_cases {kind : EventKind} {filters : List Filter} {registration : Registration}
    (hneeded : needed kind filters = .ok registration) :
    ∃ callback, kind.callbackKind = .ok callback ∧ Needed kind filters callback registration := by
  cases hcallback : kind.callbackKind with
  | error e =>
      simp only [needed, hcallback, bind, Except.bind] at hneeded
      cases hneeded
  | ok callback =>
      refine ⟨callback, rfl, ?_⟩
      simp only [needed, hcallback, bind, Except.bind] at hneeded
      split at hneeded
      · split at hneeded
        · cases hneeded
          exact .breakpoint rfl ‹_›
        · cases hneeded
      · split at hneeded
        · cases hneeded
          exact .step rfl ‹_›
        · cases hneeded
      · rename_i hbreakpoint hstep
        cases hneeded
        exact .other hbreakpoint hstep

/-- A request needs a breakpoint if and only if it is a breakpoint request with this position and no
other. -/
theorem breakpoint_of_needed {kind : EventKind} {filters : List Filter}
    {registration : Registration} (hneeded : needed kind filters = .ok registration)
    (position : MethodId × CodeIndex) :
    registration.breakpoint = some position ↔
      kind = .breakpoint ∧ filters.filterMap positionOf? = [position] := by
  obtain ⟨callback, -, hcases⟩ := needed_cases hneeded
  cases hcases with
  | breakpoint hkind hposition => simp [hkind, hposition]
  | step hkind hthread => simp [hkind]
  | other hbreakpoint hstep => simp [hbreakpoint]

/-- A request needs a notification for one thread if it is a step request, and for all threads if it
is none. -/
theorem notification_of_needed {kind : EventKind} {filters : List Filter}
    {registration : Registration} (hneeded : needed kind filters = .ok registration) :
    kind.callbackKind = .ok registration.notification.1 ∧
      ((kind ≠ .singleStep ∧ registration.notification.2 = none) ∨
        ∃ id, kind = .singleStep ∧ registration.notification.2 = some id ∧
          filters.filterMap stepThreadOf? = [id]) := by
  obtain ⟨callback, hcallback, hcases⟩ := needed_cases hneeded
  cases hcases with
  | breakpoint hkind hposition => exact ⟨hcallback, .inl ⟨by simp [hkind], rfl⟩⟩
  | step hkind hthread => exact ⟨hcallback, .inr ⟨_, hkind, rfl, hthread⟩⟩
  | other hbreakpoint hstep => exact ⟨hcallback, .inl ⟨hstep, rfl⟩⟩

/-- A step request needs the notification for its thread and nothing else. -/
theorem registration_of_step {filters : List Filter} {registration : Registration} {id : ObjectId}
    (hneeded : needed .singleStep filters = .ok registration)
    (hid : filters.filterMap stepThreadOf? = [id]) :
    registration = ⟨none, (.singleStep, some id)⟩ := by
  have hstep : needed .singleStep filters = .ok ⟨none, (.singleStep, some id)⟩ := by
    rw [needed]
    rw [hid]
    rfl
  exact Except.ok.inj (hneeded.symm.trans hstep)

/-! ### The table of requests -/

/-- Every registered request needs what it was registered for. -/
def NeedsKept (a : Agent) : Prop :=
  ∀ request ∈ a.requests.requests, needed request.kind request.filters = .ok request.registration

namespace NeedsKept

variable {a b : Agent}

theorem change (hn : NeedsKept a) (h : Change a b) : NeedsKept b := by
  cases h with
  | machine | recount | enrol | forget | session => exact hn
  | advance kind ctx =>
      intro request hmem
      obtain ⟨before, hbefore, rfl⟩ := List.mem_map.mp hmem
      split
      · exact (needed_advance before.kind ctx before.filters).trans (hn before hbefore)
      · exact hn before hbefore
  | remove hmem hreleases hdisables =>
      obtain ⟨set, counts, rfl⟩ := hreleases.eq
      obtain ⟨thread, enabled, held, rfl⟩ := hdisables.eq
      exact fun request hkept => hn request (List.mem_filter.mp hkept).1

theorem engagement (hn : NeedsKept a) (h : Engagement a b) : NeedsKept b := by
  cases h with
  | request hneeded hholds henables =>
      obtain ⟨set, counts, rfl⟩ := hholds.eq
      obtain ⟨vm, enabled, held, hkeeps, rfl⟩ := henables.eq
      intro request hmem
      rcases List.mem_append.mp hmem with hmem | hlast
      · exact hn request hmem
      · rw [List.mem_singleton.mp hlast]
        exact hneeded
  | session hnone henables =>
      obtain ⟨vm, enabled, held, hkeeps, rfl⟩ := henables.eq
      exact hn

theorem run (ho : Orderly a) (hn : NeedsKept a) (ops : List Op) : NeedsKept (a.run ops) :=
  run_invariant (fun _ _ _ h hb => hb.change h) (fun _ _ _ h hb => hb.engagement h) ho hn ops

end NeedsKept

theorem needsKept_reached (steps : List Vm.Setup) (config : Config) (ops : List Op) :
    NeedsKept (Agent.reached steps config ops) :=
  NeedsKept.run (orderly_reached steps config []) (fun _ hmem => by cases hmem) ops

section Counting

variable {requests : List Request}

/-- Advancing requests does not change what they need, so nothing that counts needs notices it. -/
theorem countP_advance (ctx : Context) (fires : Request → Bool) (p : Registration → Bool) :
    (requests.map fun request => if fires request then request.advance ctx else request).countP
        (fun request => p request.registration) =
      requests.countP fun request => p request.registration := by
  rw [List.countP_map]
  refine List.countP_congr fun request _ => ?_
  simp only [Function.comp_apply]
  split <;> exact Iff.rfl

/-- Removing a request takes one from what it is counted for. -/
theorem countP_remove (hsorted : requests.Pairwise (·.id < ·.id)) {request : Request}
    (hmem : request ∈ requests) (p : Request → Bool) :
    requests.countP p =
      (requests.filter fun r => r.id ≠ request.id).countP p + if p request then 1 else 0 := by
  induction requests with
  | nil => cases hmem
  | cons first rest ih =>
      obtain ⟨hfirst, hrest⟩ := List.pairwise_cons.mp hsorted
      rcases List.mem_cons.mp hmem with rfl | hmem
      · -- the first request is removed, and all the others stay
        have hkept : rest.filter (fun r => r.id ≠ request.id) = rest :=
          List.filter_eq_self.mpr fun r hr => by simpa using (Int.ne_of_lt (hfirst r hr)).symm
        rw [List.filter_cons_of_neg (by simp), hkept, List.countP_cons]
      · have hne : first.id ≠ request.id := Int.ne_of_lt (hfirst request hmem)
        rw [List.filter_cons_of_pos (by simpa using hne), List.countP_cons, List.countP_cons,
          ih hrest hmem]
        omega

end Counting

end DebugAgent
