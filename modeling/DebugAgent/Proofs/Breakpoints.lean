import DebugAgent.Proofs.Requests

/-!
# Shared breakpoints

Several requests may name the same position.  The machine knows one breakpoint there, and the agent
counts the requests behind it.  Request table, counter and machine change at different moments of an
operation; after every change they agree again.
-/

namespace DebugAgent

open Registration

/-- Number of registered requests that need a breakpoint at a position. -/
def Agent.requestsAt (a : Agent) (position : MethodId × CodeIndex) : Nat :=
  a.requests.requests.countP fun request => request.registration.breakpoint = some position

/-- Breakpoints are set where requests need them, and counted by these requests. -/
structure BreakpointsShared (a : Agent) : Prop where
  counted : ∀ position, a.requests.breakpoints.get? position =
    if a.requestsAt position = 0 then none else some (a.requestsAt position)
  set : ∀ position, position ∈ a.vm.breakpoints ↔ 0 < a.requestsAt position
  allowed : ∀ position, 0 < a.requestsAt position → a.vm.AllowsBreakpoint position

namespace BreakpointsShared

variable {a b c : Agent}

/-- A change that leaves breakpoints and the number of requests behind them alone. -/
theorem of_requestsAt (hshared : BreakpointsShared a)
    (hrequests : ∀ position, b.requestsAt position = a.requestsAt position)
    (hcounts : ∀ position,
      b.requests.breakpoints.get? position = a.requests.breakpoints.get? position)
    (hset : b.vm.breakpoints = a.vm.breakpoints)
    (hallowed : ∀ position, a.vm.AllowsBreakpoint position → b.vm.AllowsBreakpoint position) :
    BreakpointsShared b where
  counted := fun position => by rw [hcounts, hrequests, hshared.counted]
  set := fun position => by rw [hset, hrequests, hshared.set]
  allowed := fun position hpos =>
    hallowed position (hshared.allowed position (by rwa [hrequests] at hpos))

/-- A change that concerns one position only. -/
theorem of_others (hshared : BreakpointsShared a) {position : MethodId × CodeIndex}
    (hothers : ∀ q, q ≠ position → b.requestsAt q = a.requestsAt q ∧
      b.requests.breakpoints.get? q = a.requests.breakpoints.get? q ∧
        (q ∈ b.vm.breakpoints ↔ q ∈ a.vm.breakpoints))
    (hcounted : b.requests.breakpoints.get? position =
      if b.requestsAt position = 0 then none else some (b.requestsAt position))
    (hset : position ∈ b.vm.breakpoints ↔ 0 < b.requestsAt position)
    (hkept : ∀ q, a.vm.AllowsBreakpoint q → b.vm.AllowsBreakpoint q)
    (hallowed : a.vm.AllowsBreakpoint position) : BreakpointsShared b where
  counted := by
    intro q
    by_cases hq : q = position
    · rw [hq]
      exact hcounted
    · obtain ⟨hrequests, hcount, -⟩ := hothers q hq
      rw [hcount, hrequests, hshared.counted]
  set := by
    intro q
    by_cases hq : q = position
    · rw [hq]
      exact hset
    · obtain ⟨hrequests, -, hsame⟩ := hothers q hq
      rw [hsame, hrequests, hshared.set]
  allowed := by
    intro q hpos
    by_cases hq : q = position
    · rw [hq]
      exact hkept position hallowed
    · obtain ⟨hrequests, -, -⟩ := hothers q hq
      rw [hrequests] at hpos
      exact hkept q (hshared.allowed q hpos)

/-- One request less behind a breakpoint: the request is gone from the table already. -/
theorem releases (hshared : BreakpointsShared a) {rest : Agent}
    {position : Option (MethodId × CodeIndex)} (hreleases : Releases rest position b)
    (hvm : rest.vm = a.vm) (hsame : rest.requests.breakpoints = a.requests.breakpoints)
    (hremoved : ∀ q, a.requestsAt q = rest.requestsAt q + if position = some q then 1 else 0) :
    BreakpointsShared b := by
  cases position with
  | none =>
      cases hreleases with
      | none =>
          refine hshared.of_requestsAt (fun q => ?_) (fun q => by rw [hsame]) (by rw [hvm])
            fun q hallow => hvm ▸ hallow
          simpa using (hremoved q).symm
  | some position =>
      have hself : a.requestsAt position = rest.requestsAt position + 1 := by
        simpa using hremoved position
      have hother : ∀ q, q ≠ position → rest.requestsAt q = a.requestsAt q := by
        intro q hne
        simpa [hne.symm] using (hremoved q).symm
      have hcounted : rest.requests.breakpoints.get? position =
          some (rest.requestsAt position + 1) := by
        rw [hsame, hshared.counted, hself]
        simp
      have hallow : a.vm.AllowsBreakpoint position := hshared.allowed position (by omega)
      cases hreleases with
      | unknown hnone => cases hnone.symm.trans hcounted
      | @fewer _ count hcount =>
          have hrest : rest.requestsAt position = count + 1 :=
            Nat.succ.inj (Option.some.inj (hcounted.symm.trans hcount))
          have hleft : ∀ q, (rest.requests.breakpoints.insert position (count + 1)).get? q =
              if q = position then some (count + 1) else a.requests.breakpoints.get? q := by
            intro q
            rw [Table.get?_insert, hsame]
          refine hshared.of_others (fun q (hq : q ≠ position) => ⟨hother q hq, ?_, ?_⟩) ?_ ?_
            (fun q h => hvm ▸ h) hallow
          · exact (hleft q).trans (if_neg hq)
          · show q ∈ rest.vm.breakpoints ↔ q ∈ a.vm.breakpoints
            rw [hvm]
          · show (rest.requests.breakpoints.insert position (count + 1)).get? position =
              if rest.requestsAt position = 0 then none else some (rest.requestsAt position)
            simp [hleft, hrest]
          · show position ∈ rest.vm.breakpoints ↔ 0 < rest.requestsAt position
            rw [hvm, hshared.set]
            omega
      | last hcount =>
          have hrest : rest.requestsAt position = 0 :=
            Nat.succ.inj (Option.some.inj (hcounted.symm.trans hcount))
          have hleft : ∀ q, (rest.requests.breakpoints.erase position).get? q =
              if q = position then none else a.requests.breakpoints.get? q := by
            intro q
            rw [Table.get?_erase, hsame]
          have hdropped : ∀ q, q ∈ rest.vm.breakpoints.filter (fun p => p ≠ position) ↔
              q ∈ a.vm.breakpoints ∧ q ≠ position := by
            intro q
            rw [hvm, List.mem_filter, decide_eq_true_iff]
          refine hshared.of_others (fun q (hq : q ≠ position) => ⟨hother q hq, ?_, ?_⟩) ?_ ?_
            (fun q h => hvm ▸ h) hallow
          · exact (hleft q).trans (if_neg hq)
          · exact (hdropped q).trans (and_iff_left hq)
          · show (rest.requests.breakpoints.erase position).get? position =
              if rest.requestsAt position = 0 then none else some (rest.requestsAt position)
            simp [hleft, hrest]
          · apply (hdropped position).trans
            show _ ↔ 0 < rest.requestsAt position
            simp [hrest]
      | stuck hcount hrefused =>
          have hmem : position ∈ a.vm.breakpoints := (hshared.set position).mpr (by omega)
          rw [← hvm] at hmem hallow
          exact absurd hmem (hrefused hallow)

/-- One request more behind a breakpoint: the request is going to be in the table. -/
theorem holds (hshared : BreakpointsShared a) {position : Option (MethodId × CodeIndex)}
    (hholds : Holds a position b)
    (hadded : ∀ q, c.requestsAt q = a.requestsAt q + if position = some q then 1 else 0)
    (hset : c.vm.breakpoints = b.vm.breakpoints)
    (hsame : c.requests.breakpoints = b.requests.breakpoints)
    (hallowed : ∀ q, b.vm.AllowsBreakpoint q → c.vm.AllowsBreakpoint q) :
    BreakpointsShared c := by
  cases position with
  | none =>
      cases hholds with
      | none =>
          refine hshared.of_requestsAt (fun q => ?_) (fun q => by rw [hsame]) hset hallowed
          simpa using hadded q
  | some position =>
      have hself : c.requestsAt position = a.requestsAt position + 1 := by
        simpa using hadded position
      have hother : ∀ q, q ≠ position → c.requestsAt q = a.requestsAt q := by
        intro q hne
        simpa [hne.symm] using hadded q
      have hcounted := hshared.counted position
      cases hholds with
      | @more _ count hcount =>
          obtain ⟨hbefore, hpos⟩ : a.requestsAt position = count ∧ 0 < count := by
            rw [hcount] at hcounted
            grind
          have hheld : ∀ q, c.requests.breakpoints.get? q =
              if q = position then some (count + 1) else a.requests.breakpoints.get? q := by
            intro q
            rw [hsame]
            exact Table.get?_insert _ _ _ q
          have hstays : c.vm.breakpoints = a.vm.breakpoints := hset
          refine hshared.of_others (fun q hq => ⟨hother q hq, ?_, by rw [hstays]⟩) ?_ ?_ hallowed
            (hshared.allowed position (by omega))
          · exact (hheld q).trans (if_neg hq)
          · simp [hheld, hself, hbefore]
          · rw [hstays, hshared.set]
            omega
      | first hnone hallow hfree =>
          have hzero : a.requestsAt position = 0 := by
            have hnot := mt (hshared.set position).mpr hfree
            omega
          have hheld : ∀ q, c.requests.breakpoints.get? q =
              if q = position then some 1 else a.requests.breakpoints.get? q := by
            intro q
            rw [hsame]
            exact Table.get?_insert _ _ _ q
          have hmem : ∀ q, q ∈ c.vm.breakpoints ↔ q ∈ a.vm.breakpoints ∨ q = position := by
            intro q
            rw [hset]
            show q ∈ a.vm.breakpoints ++ [position] ↔ _
            rw [List.mem_append, List.mem_singleton]
          refine hshared.of_others (fun q hq => ⟨hother q hq, ?_, ?_⟩) ?_ ?_ hallowed hallow
          · exact (hheld q).trans (if_neg hq)
          · exact (hmem q).trans (or_iff_left hq)
          · simp [hheld, hself, hzero]
          · simp [hmem, hself]

theorem change (ho : Orderly a) (hshared : BreakpointsShared a) (h : Change a b) :
    BreakpointsShared b := by
  cases h with
  | machine hkeeps =>
      exact hshared.of_requestsAt (fun _ => rfl) (fun _ => rfl) hkeeps.breakpoints
        fun _ hallow => hallow.of_keeps hkeeps
  | recount | enrol | session =>
      exact hshared.of_requestsAt (fun _ => rfl) (fun _ => rfl) rfl fun _ hallow => hallow
  | @forget id entry hentry =>
      have hsteady := Vm.steady_deleteRef a.vm .globalRef entry.global
      exact hshared.of_requestsAt (fun _ => rfl) (fun _ => rfl) hsteady.breakpoints
        fun _ hallow => hallow.of_steady hsteady
  | advance kind ctx =>
      exact hshared.of_requestsAt (fun q => countP_advance ctx _ fun r => r.breakpoint = some q)
        (fun _ => rfl) rfl fun _ hallow => hallow
  | @remove request released c hmem hreleases hdisables =>
      have hremoved : ∀ q, a.requestsAt q = (a.dropRequest request.id).requestsAt q +
          if request.registration.breakpoint = some q then 1 else 0 := by
        intro q
        calc
          a.requestsAt q = _ + _ := countP_remove ho.sorted hmem _
          _ = _ := by simp [Agent.requestsAt, Agent.dropRequest, RequestTable.remove]
      have hreleased := hshared.releases hreleases rfl rfl hremoved
      obtain ⟨thread, enabled, held, rfl⟩ := hdisables.eq
      have hsteady := steady_freed thread (released.vm.putNotifications enabled)
      refine hreleased.of_requestsAt (fun _ => rfl) (fun _ => rfl) hsteady.breakpoints
        fun q hallow => ?_
      have htold : (released.vm.putNotifications enabled).AllowsBreakpoint q := hallow
      exact htold.of_steady hsteady

theorem engagement (hshared : BreakpointsShared a) (h : Engagement a b) :
    BreakpointsShared b := by
  cases h with
  | @request kind policy filters registration held _ hneeded hholds henables =>
      obtain ⟨vm, enabled, notifications, hkeeps, rfl⟩ := henables.eq
      refine hshared.holds hholds (fun q => ?_) hkeeps.breakpoints rfl
        fun q hallow => show vm.AllowsBreakpoint q from hallow.of_keeps hkeeps
      obtain ⟨set, counts, rfl⟩ := hholds.eq
      calc
        _ = _ + _ := List.countP_append
        _ = a.requestsAt q + if registration.breakpoint = some q then 1 else 0 := by
          simp [Agent.requestsAt, List.countP_cons, Agent.putNotifications, Agent.putBreakpoints,
            Agent.setVm]
  | session hnone henables =>
      obtain ⟨vm, enabled, notifications, hkeeps, rfl⟩ := henables.eq
      exact hshared.of_requestsAt (fun _ => rfl) (fun _ => rfl) hkeeps.breakpoints
        fun q hallow => show vm.AllowsBreakpoint q from hallow.of_keeps hkeeps

end BreakpointsShared

/-- A breakpoint request with this position and no other. -/
def Request.breaksAt (position : MethodId × CodeIndex) (request : Request) : Bool :=
  request.kind = .breakpoint ∧ request.filters.filterMap positionOf? = [position]

section Reached

variable {a : Agent}

theorem requestsAt_eq (hn : NeedsKept a) (position : MethodId × CodeIndex) :
    a.requestsAt position = a.requests.requests.countP (Request.breaksAt position) := by
  refine List.countP_congr fun request hmem => ?_
  simpa [Request.breaksAt] using breakpoint_of_needed (hn request hmem) position

/-- A breakpoint is set if and only if a registered request breaks there. -/
theorem BreakpointsShared.isBreakpoint_iff (hshared : BreakpointsShared a) (hn : NeedsKept a)
    (method : MethodId) (index : CodeIndex) :
    a.vm.isBreakpoint method index ↔
      ∃ request ∈ a.requests.requests, request.breaksAt (method, index) := by
  rw [Vm.isBreakpoint]
  rw [List.contains_iff_mem, hshared.set, requestsAt_eq hn, List.countP_pos_iff]

theorem shared_reached (steps : List Vm.Setup) (config : Config) (ops : List Op) :
    BreakpointsShared (Agent.reached steps config ops) := by
  have hempty : (Vm.built steps).breakpoints = [] := (Vm.keeps_built steps).breakpoints
  have hstart : BreakpointsShared (Agent.start (Vm.built steps) config) := by
    refine ⟨fun _ => rfl, fun position => ?_, fun position hpos => ?_⟩
    · show position ∈ (Vm.built steps).breakpoints ↔ 0 < 0
      simp [hempty]
    · exact absurd hpos (Nat.lt_irrefl 0)
  exact run_invariant (fun _ _ ho hchange hb => hb.change ho hchange)
    (fun _ _ _ hlast hb => hb.engagement hlast) (orderly_reached steps config []) hstart ops

end Reached

/-- Throughout a run a breakpoint is set exactly where registered requests break, and counted as
often as there are such requests.  Removing a request always succeeds: it takes the breakpoint away
with the last request that breaks there, and leaves it where another one does. -/
theorem breakpoints_match_requests (steps : List Vm.Setup) (config : Config) (ops : List Op) :
    let a := Agent.reached steps config ops
    (∀ method index, a.vm.isBreakpoint method index ↔
      ∃ request ∈ a.requests.requests, request.breaksAt (method, index)) ∧
    (∀ position, a.requests.breakpoints.get? position =
      let count := a.requests.requests.countP (Request.breaksAt position)
      if count = 0 then none else some count) ∧
    (∀ request ∈ a.requests.requests, ∃ b, (Registration.remove request).perform a = (.ok (), b) ∧
      ∀ method index, b.vm.isBreakpoint method index ↔
        ∃ other ∈ a.requests.requests, other.id ≠ request.id ∧ other.breaksAt (method, index)) := by
  intro a
  have ho : Orderly a := orderly_reached steps config ops
  have hshared : BreakpointsShared a := shared_reached steps config ops
  have hn : NeedsKept a := needsKept_reached steps config ops
  refine ⟨hshared.isBreakpoint_iff hn, fun position => ?_, fun request hmem => ?_⟩
  · rw [hshared.counted, requestsAt_eq hn]
  · obtain ⟨b, hchange, hrequests, hremove⟩ := evolves_remove ho hmem rfl rfl
    refine ⟨b, hremove, fun method index => ?_⟩
    rw [(hshared.change ho hchange).isBreakpoint_iff (hn.change hchange), hrequests]
    simp [RequestTable.remove, and_assoc]

end DebugAgent
