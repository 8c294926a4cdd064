import DebugAgent.Proofs.Inspection
import Mathlib.Data.List.Basic

/-!
# Which requests fire

A callback fires the requests of its kind whose filters accept it, in the order of the table.  This
module states the rule without a loop and shows that a pass over the table does as the rule says.

Some filters refer to an object for the time of a test.  All that is left of it are reference
numbers that will not be used again, so a test tells the same whenever it is made.
-/

namespace DebugAgent

open Command

namespace Agent

/-- A registered request fires in this context. -/
def requestFires (a : Agent) (ctx : Context) (request : Request) : Bool :=
  request.fires a.vm a.tracker ctx (a.requests.stepThread? request)

/-- The requests of a kind that fire in this context, oldest first. -/
def firing (a : Agent) (kind : EventKind) (ctx : Context) : List Request :=
  (a.requests.ofKind kind).filter (a.requestFires ctx)

/-- The requests of a kind that fire take note of it. -/
def advance (kind : EventKind) (ctx : Context) (a : Agent) : Agent :=
  { a with
    requests :=
      { a.requests with
        requests := a.requests.requests.map fun request =>
          if request.kind = kind && a.requestFires ctx request then request.advance ctx
          else request } }

/-- A request takes the place of the one with its identifier. -/
def replaceRequest (a : Agent) (request : Request) : Agent :=
  { a with requests := a.requests.replace request }

end Agent

/-! ### Reference numbers that are used up -/

namespace Vm

/-- The machine after some reference numbers have been used up. -/
def spend (count : Nat) (vm : Vm) : Vm := { vm with lastRef := vm.lastRef + count }

variable {vm : Vm}

theorem bounded_spend (hb : vm.RefsBounded) (count : Nat) : (vm.spend count).RefsBounded :=
  fun raw ref href => Nat.le_trans (hb raw ref href) (Nat.le_add_right _ _)

theorem conserves_spend (vm : Vm) (count : Nat) : vm.Conserves (vm.spend count) where
  toSteady := ⟨rfl, rfl, rfl, id, .inr, id, id⟩
  toAges := ⟨Nat.le_add_right _ _, .inl⟩
  globals := fun hg => ⟨hg.isNull, hg.get?⟩
  globals_old := fun hg => hg

/-- A reference that is given back leaves its number used up, like those of other references that
were given back in the meantime. -/
theorem dropLocal_newLocal_spent (hb : vm.RefsBounded) (object : HeapId) (used : Nat) :
    dropLocal ((vm.newLocal object).2.spend used) (vm.newLocal object).1 =
      vm.spend (8 + used) := by
  rw [dropLocal_newLocal]
  simp [deleteLocalRef, deleteRef, newLocal, newRef, spend, Table.erase_insert hb.get?_next,
    Nat.add_assoc]

/-- A reference that is given back at once leaves its number used up. -/
theorem dropLocal_newLocal_self (hb : vm.RefsBounded) (object : HeapId) :
    dropLocal (vm.newLocal object).2 (vm.newLocal object).1 = vm.spend 8 :=
  dropLocal_newLocal_spent hb object 0

theorem assignable_congr {vm' : Vm} (hheap : vm'.heap = vm.heap) (sub sup : HeapId) :
    vm'.assignable sub sup = vm.assignable sub sup := by
  have hclass : vm'.classAt? = vm.classAt? := by
    funext id
    simp only [classAt?, hheap]
  have hwithin : ∀ depth, vm'.assignableWithin sup depth = vm.assignableWithin sup depth := by
    intro depth
    induction depth with
    | zero => rfl
    | succ depth ih =>
        funext sub
        simp only [assignableWithin, hclass, ih]
  simp only [assignable, hheap, hwithin]

end Vm

/-- The agent after reference numbers of its machine have been used up. -/
def Agent.spend (count : Nat) (a : Agent) : Agent := a.setVm (a.vm.spend count)

variable {a : Agent} {α β : Type}

@[simp] theorem Agent.spend_spend (a : Agent) (first later : Nat) :
    (a.spend first).spend later = a.spend (first + later) := by
  simp [Agent.spend, Agent.setVm, Vm.spend, Nat.add_assoc]

@[simp] theorem Agent.spend_zero (a : Agent) : a.spend 0 = a := rfl

/-- However many reference numbers are used up, the command tells the same and leaves only more of
them used up. -/
def Tells (a : Agent) (x : Command α) (answer : α) : Prop :=
  ∀ used, ∃ more, x.perform (a.spend used) = (.ok answer, a.spend more)

theorem tells_pure (a : Agent) (answer : α) : Tells a (pure answer) answer :=
  fun used => ⟨used, rfl⟩

theorem Tells.bind {x : Command α} {f : α → Command β} {first : α} {answer : β}
    (hx : Tells a x first) (hf : Tells a (f first) answer) : Tells a (x >>= f) answer := by
  intro used
  obtain ⟨more, hx⟩ := hx used
  obtain ⟨last, hf⟩ := hf more
  refine ⟨last, ?_⟩
  rw [Action.perform_bind, hx]
  exact hf

/-- A test of the object that an identifier designates. -/
theorem tells_consult (hb : a.vm.RefsBounded) (id : ObjectId) (test : Vm → Option HeapId → β)
    (htest : ∀ vm : Vm, vm.heap = a.vm.heap → test vm = test a.vm) :
    Tells a (do
      let h ← Tracking.acquire id
      withLocal h do see fun vm => test vm (vm.target? h))
      (test a.vm (a.tracker.target? a.vm id)) := by
  intro used
  have hspent : test (a.vm.spend used) = test a.vm := htest _ rfl
  cases hglobal : a.tracker.global? id with
  | none =>
      have hnull : (a.vm.spend used).target? .null = none := rfl
      have hdropped : dropLocal (a.vm.spend used) .null = a.vm.spend used := rfl
      refine ⟨used, ?_⟩
      simp [Tracking.acquire, Action.perform_bind, see, Agent.spend, Agent.setVm,
        Tracker.target?, hglobal, hspent, hnull, hdropped]
  | some global =>
      cases htarget : a.vm.target? global with
      | none =>
          have hlocal : (a.vm.spend used).newLocalRef global = (.null, a.vm.spend used) := by
            have hsame : (a.vm.spend used).target? global = none := htarget
            rw [Vm.newLocalRef, hsame]
          have hnull : (a.vm.spend used).target? .null = none := rfl
          have hdropped : dropLocal (a.vm.spend used) .null = a.vm.spend used := rfl
          refine ⟨used, ?_⟩
          simp [Tracking.acquire, Action.perform_bind, see, touch, Agent.spend, Agent.setVm,
            Tracker.target?, hglobal, hspent, htarget, hlocal, hnull, hdropped]
      | some object =>
          let near := (a.vm.spend used).newLocal object
          have hlocal : (a.vm.spend used).newLocalRef global = near := by
            have hsame : (a.vm.spend used).target? global = some object := htarget
            rw [Vm.newLocalRef, hsame]
            rfl
          have hnear : test near.2 = test a.vm := htest _ rfl
          have hobject : near.2.target? near.1 = some object :=
            Vm.target?_newRef (a.vm.spend used) .localRef object
          have hdropped : dropLocal near.2 near.1 = (a.vm.spend used).spend 8 :=
            Vm.dropLocal_newLocal_self (Vm.bounded_spend hb used) object
          refine ⟨used + 8, ?_⟩
          rw [← Agent.spend_spend]
          simp [Tracking.acquire, Action.perform_bind, see, touch, Agent.spend, Agent.setVm,
            Tracker.target?, hglobal, htarget, hlocal, hnear, hobject, hdropped]

/-! ### Tests of filters -/

namespace Filter

theorem accepts_congr {vm vm' : Vm} (hheap : vm'.heap = vm.heap) (hrefs : vm'.refs = vm.refs)
    (tracker : Tracker) (ctx : Context) (stepThread : Option Handle) (filter : Filter) :
    filter.accepts vm' tracker ctx stepThread = filter.accepts vm tracker ctx stepThread := by
  have htarget : vm'.target? = vm.target? := by
    funext h
    simp only [Vm.target?, hrefs]
  have hkind : ∀ refType cls, isKindOf vm' tracker refType cls = isKindOf vm tracker refType cls := by
    intro refType cls
    simp only [isKindOf, Tracker.target?, htarget, Vm.assignable_congr hheap]
  cases filter <;> simp only [accepts, hkind, htarget, Tracker.target?]

theorem tells_checkKind (hb : a.vm.RefsBounded) (refType : ObjectId) (cls : Option HeapId) :
    Tells a (checkKind refType cls) (isKindOf a.vm a.tracker refType cls) := by
  cases cls with
  | none => exact tells_pure a false
  | some cls =>
      have htest : ∀ vm : Vm, vm.heap = a.vm.heap →
          (Option.any (vm.assignable cls)) = Option.any (a.vm.assignable cls) := by
        intro vm hheap
        have hsame : vm.assignable cls = a.vm.assignable cls := by
          funext sup
          exact Vm.assignable_congr hheap cls sup
        rw [hsame]
      have htells := tells_consult hb refType (fun vm => Option.any (vm.assignable cls)) htest
      have hkind : isKindOf a.vm a.tracker refType (some cls) =
          (a.tracker.target? a.vm refType).any (a.vm.assignable cls) := by
        simp only [isKindOf]
        cases a.tracker.target? a.vm refType <;> rfl
      rw [hkind]
      exact htells

/-- Testing a filter tells whether it accepts. -/
theorem tells_check (hb : a.vm.RefsBounded) (ctx : Context) (stepThread : Option Handle)
    (filter : Filter) :
    Tells a (filter.check ctx stepThread) (filter.accepts a.vm a.tracker ctx stepThread) := by
  cases filter with
  | classOnly refType => exact tells_checkKind hb refType ctx.cls
  | exceptionOnly refType caught uncaught =>
      cases hflag : if ctx.caught then caught else uncaught with
      | false =>
          simp only [check, accepts, hflag]
          exact tells_pure a false
      | true =>
          by_cases hzero : refType = 0
          · simp only [check, accepts, hflag, hzero]
            exact tells_pure a true
          · simp only [check, accepts, hflag, hzero]
            simpa [hzero] using tells_checkKind hb refType ctx.exceptionClass
  | instanceOnly object =>
      cases hreceiver : ctx.receiver with
      | none =>
          simp only [check, accepts, hreceiver]
          exact tells_pure a false
      | some receiver =>
          have htells := tells_consult hb object
            (fun _ target => decide (target = some receiver)) fun _ _ => rfl
          have haccepts : accepts a.vm a.tracker ctx stepThread (.instanceOnly object) =
              decide (a.tracker.target? a.vm object = some receiver) := by
            simp only [accepts, hreceiver]
            cases a.tracker.target? a.vm object with
            | none => rfl
            | some target => simp [eq_comm]
          simp only [check, hreceiver]
          rw [haccepts]
          exact htells
  | count | threadOnly | classMatch | classExclude | locationOnly | step =>
      exact fun used => ⟨used, rfl⟩

end Filter

theorem tells_allM {f : α → Command Bool} {p : α → Bool} (hf : ∀ x, Tells a (f x) (p x))
    (xs : List α) : Tells a (xs.allM f) (xs.all p) := by
  induction xs with
  | nil => exact tells_pure a true
  | cons x xs ih =>
      rw [List.allM, List.all_cons]
      apply (hf x).bind
      cases p x with
      | false => exact tells_pure a false
      | true => exact ih

/-! ### A pass over the table -/

/-- A registered request is found by its identifier. -/
theorem find?_of_mem {requests : List Request} (hsorted : requests.Pairwise (·.id < ·.id))
    {request : Request} (hmem : request ∈ requests) :
    requests.find? (fun r => r.id = request.id) = some request := by
  induction requests with
  | nil => cases hmem
  | cons first rest ih =>
      obtain ⟨hfirst, hrest⟩ := List.pairwise_cons.mp hsorted
      rcases List.mem_cons.mp hmem with rfl | hmem
      · exact List.find?_cons_of_pos (by simp)
      · have hne : first.id ≠ request.id := Int.ne_of_lt (hfirst request hmem)
        rw [List.find?_cons_of_neg (by simpa using hne)]
        exact ih hrest hmem

namespace Firing

/-- Visiting a request changes nothing but the request, and that only if it fires. -/
theorem perform_visit (hb : a.vm.RefsBounded) (ctx : Context) (pass : Pass) (request : Request) :
    ∃ used, (visit ctx pass request).perform a =
      if a.requestFires ctx request then
        (.ok (pass.fire ctx (request.advance ctx)),
          (a.spend used).replaceRequest (request.advance ctx))
      else (.ok pass, a.spend used) := by
  have htells := tells_allM
    (Filter.tells_check hb ctx (a.requests.stepThread? request)) request.filters
  obtain ⟨used, hall⟩ := htells 0
  refine ⟨used, ?_⟩
  have hfires : a.requestFires ctx request = request.filters.all
      (Filter.accepts a.vm a.tracker ctx (a.requests.stepThread? request)) := rfl
  rw [Agent.spend_zero, ← hfires] at hall
  simp only [visit, Action.perform_bind, Action.perform_look, hall]
  cases a.requestFires ctx request <;> rfl

theorem requestFires_congr {b : Agent} {used : Nat} (hvm : b.vm = a.vm.spend used)
    (htracker : b.tracker = a.tracker)
    (hnotifications : b.requests.notifications = a.requests.notifications) (ctx : Context) :
    b.requestFires ctx = a.requestFires ctx := by
  funext request
  have hstep : b.requests.stepThread? request = a.requests.stepThread? request := by
    simp only [RequestTable.stepThread?, hnotifications]
  simp only [Agent.requestFires, Request.fires, hvm, htracker, hstep]
  apply congrArg (request.filters.all ·)
  funext filter
  have hspent : (a.vm.spend used).heap = a.vm.heap := rfl
  exact Filter.accepts_congr hspent rfl _ _ _ filter

/-- The requests that fire take each other's turn; the others are passed over. -/
theorem perform_visits (hb : a.vm.RefsBounded) (ctx : Context) (pass : Pass)
    (requests : List Request) :
    ∃ used, (requests.foldlM (visit ctx) pass).perform a =
      let fired := (requests.filter (a.requestFires ctx)).map (Request.advance ctx)
      (.ok (fired.foldl (fun pass request => pass.fire ctx request) pass),
        fired.foldl Agent.replaceRequest (a.spend used)) := by
  induction requests generalizing a pass with
  | nil => exact ⟨0, rfl⟩
  | cons request requests ih =>
      obtain ⟨used, hvisit⟩ := perform_visit hb ctx pass request
      rw [List.foldlM_cons]
      cases hfires : a.requestFires ctx request with
      | false =>
          have hbound : (a.spend used).vm.RefsBounded := Vm.bounded_spend hb used
          obtain ⟨more, hrest⟩ := ih hbound pass
          have hsame := requestFires_congr (b := a.spend used) rfl rfl rfl ctx
          refine ⟨used + more, ?_⟩
          simp [Action.perform_bind, hvisit, hfires, hrest, hsame]
      | true =>
          let b := (a.spend used).replaceRequest (request.advance ctx)
          have hbound : b.vm.RefsBounded := Vm.bounded_spend hb used
          obtain ⟨more, hrest⟩ := ih hbound (pass.fire ctx (request.advance ctx))
          have hsame := requestFires_congr (a := a) (b := b) rfl rfl rfl ctx
          have hspend : b.spend more =
              (a.spend (used + more)).replaceRequest (request.advance ctx) := by
            rw [← Agent.spend_spend]
            rfl
          refine ⟨used + more, ?_⟩
          simp only [Action.perform_bind, hvisit, hfires, if_true, b] at hrest hsame hspend ⊢
          rw [hrest, hsame, hspend]
          simp [hfires]

/-! ### The table after a pass -/

theorem foldl_replaceRequest (a : Agent) (fired : List Request) :
    fired.foldl Agent.replaceRequest a =
      { a with requests := { a.requests with
          requests := fired.foldl
            (fun table request => table.map fun r => if r.id = request.id then request else r)
            a.requests.requests } } := by
  induction fired generalizing a with
  | nil => rfl
  | cons request fired ih =>
      rw [List.foldl_cons, ih]
      rfl

/-- The requests in `done` have had their turn, those in `later` have not. -/
theorem foldl_replace_eq_map (fires : Request → Bool) (ctx : Context) (done later : List Request)
    (hdistinct : (done ++ later).Pairwise (·.id ≠ ·.id)) :
    let step := fun request => if fires request then request.advance ctx else request
    ((later.filter fires).map (Request.advance ctx)).foldl
        (fun table request => table.map fun r => if r.id = request.id then request else r)
        (done.map step ++ later) =
      (done ++ later).map step := by
  intro step
  induction later generalizing done with
  | nil => simp
  | cons request later ih =>
      have hassoc : (done ++ [request]) ++ later = done ++ request :: later := by simp
      have hrest := ih (done ++ [request]) (hassoc ▸ hdistinct)
      rw [hassoc] at hrest
      rw [← hrest]
      cases hfires : fires request with
      | false => simp [hfires, step]
      | true =>
          obtain ⟨-, hlater, hdone⟩ := List.pairwise_append.mp hdistinct
          have hid : ∀ r, (step r).id = r.id := by
            intro r
            simp only [step]
            split <;> rfl
          have hbefore : (done.map step).map
              (fun r => if r.id = request.id then request.advance ctx else r) = done.map step := by
            rw [List.map_map]
            apply List.map_congr_left
            intro r hr
            have hne : r.id ≠ request.id := hdone r hr request List.mem_cons_self
            simp [hid, hne]
          have hafter : later.map
              (fun r => if r.id = request.id then request.advance ctx else r) = later := by
            apply (List.map_congr_left ?_).trans (List.map_id later)
            intro r hr
            have hne : request.id ≠ r.id := (List.pairwise_cons.mp hlater).1 r hr
            simp [hne.symm]
          have hself : (request.advance ctx).id = request.id := rfl
          simp [hfires, hbefore, hafter, hself, step]

theorem foldl_replaceRequest_firing {kind : EventKind} {ctx : Context}
    (hsorted : a.requests.requests.Pairwise (·.id < ·.id)) :
    ((a.firing kind ctx).map (Request.advance ctx)).foldl Agent.replaceRequest a =
      a.advance kind ctx := by
  have hdistinct : a.requests.requests.Pairwise (·.id ≠ ·.id) := hsorted.imp Int.ne_of_lt
  have hfiring : a.firing kind ctx = a.requests.requests.filter fun request =>
      request.kind = kind && a.requestFires ctx request := by
    rw [Agent.firing, RequestTable.ofKind, List.filter_filter]
    apply List.filter_congr
    intro request _
    rw [Bool.and_comm]
  have hmap := foldl_replace_eq_map (fun request =>
    request.kind = kind && a.requestFires ctx request) ctx [] a.requests.requests hdistinct
  rw [foldl_replaceRequest, hfiring]
  simp only [List.map_nil, List.nil_append] at hmap
  rw [hmap]
  rfl

/-! ### What the pass has come to -/

/-- What a pass comes to that fires the given requests after others. -/
theorem foldl_fire (ctx : Context) (pass : Pass) (fired : List Request) :
    fired.foldl (fun pass request => pass.fire ctx request) pass =
      { events := pass.events ++ fired.map fun request => ⟨request.kind, request.id, ctx.details⟩
        policy := (fired.map Request.policy).foldl SuspendPolicy.strongest pass.policy
        expired := pass.expired ++ fired.filter Request.isExpired } := by
  induction fired generalizing pass with
  | nil => simp
  | cons request fired ih =>
      rw [List.foldl_cons, ih]
      cases hexpired : request.isExpired <;> simp [Pass.fire, hexpired]

end Firing

namespace Agent

/-- The events of a callback of this kind in this context. -/
def eventsOf (a : Agent) (kind : EventKind) (ctx : Context) : List Event :=
  Firing.unrequested kind ++ (a.firing kind ctx).map fun request => ⟨kind, request.id, ctx.details⟩

/-- The strongest policy of the requests that fire. -/
def policyOf (a : Agent) (kind : EventKind) (ctx : Context) : SuspendPolicy :=
  ((a.firing kind ctx).map Request.policy).foldl SuspendPolicy.strongest .none

/-- The requests that expire by firing once more. -/
def expiring (a : Agent) (kind : EventKind) (ctx : Context) : List Request :=
  ((a.firing kind ctx).map (Request.advance ctx)).filter Request.isExpired

/-- What the rule has to tell, if anything. -/
def firedIn? (a : Agent) (kind : EventKind) (ctx : Context) : Option Fired :=
  Firing.Pass.fired? ctx ⟨a.eventsOf kind ctx, a.policyOf kind ctx, a.expiring kind ctx⟩

/-- The table that the rule leaves: requests that fire take note of it, and are gone if it uses them
up. -/
def remaining (a : Agent) (kind : EventKind) (ctx : Context) : List Request :=
  a.requests.requests.filterMap fun request =>
    if request ∈ a.firing kind ctx then
      if (request.advance ctx).isExpired then none else some (request.advance ctx)
    else some request

end Agent

section Table

variable {kind : EventKind} {ctx : Context}

theorem mem_firing {request : Request} : request ∈ a.firing kind ctx ↔
    request ∈ a.requests.requests ∧ request.kind = kind ∧ a.requestFires ctx request := by
  simp only [Agent.firing, RequestTable.ofKind, List.mem_filter, decide_eq_true_eq, and_assoc]

theorem firing_pairwise (hsorted : a.requests.requests.Pairwise (·.id < ·.id)) (kind : EventKind)
    (ctx : Context) : (a.firing kind ctx).Pairwise (·.id < ·.id) :=
  (hsorted.filter _).filter _

/-- Among the registered requests it is the identifier that says which one expires. -/
theorem id_mem_expiring (hsorted : a.requests.requests.Pairwise (·.id < ·.id)) {request : Request}
    (hmem : request ∈ a.requests.requests) :
    request.id ∈ (a.expiring kind ctx).map Request.id ↔
      request ∈ a.firing kind ctx ∧ (request.advance ctx).isExpired := by
  simp only [Agent.expiring, List.mem_map, List.mem_filter]
  constructor
  · rintro ⟨-, ⟨⟨other, hother, rfl⟩, hexpired⟩, hid⟩
    have hsame : other = request := by
      have hfound := find?_of_mem hsorted (mem_firing.mp hother).1
      have hid : other.id = request.id := hid
      rw [hid, find?_of_mem hsorted hmem] at hfound
      exact (Option.some.inj hfound).symm
    exact ⟨hsame ▸ hother, hsame ▸ hexpired⟩
  · rintro ⟨hfires, hexpired⟩
    exact ⟨request.advance ctx, ⟨⟨request, hfires, rfl⟩, hexpired⟩, rfl⟩

/-- Taking note of what fired and then taking out what is used up leaves the table of the rule. -/
theorem filter_advance (hsorted : a.requests.requests.Pairwise (·.id < ·.id)) :
    (a.advance kind ctx).requests.requests.filter
      (fun request => request.id ∉ (a.expiring kind ctx).map Request.id) = a.remaining kind ctx := by
  rw [Agent.remaining, ← List.filterMap_eq_filter, Agent.advance, List.filterMap_map]
  apply List.filterMap_congr
  intro request hmem
  have hmatches : request ∈ a.firing kind ctx ↔
      (request.kind = kind && a.requestFires ctx request) = true := by
    simp [mem_firing, hmem]
  have hexpiring : request.id ∈ (a.expiring kind ctx).map Request.id ↔ _ :=
    id_mem_expiring hsorted hmem
  by_cases hfires : request ∈ a.firing kind ctx
  · have hid : (request.advance ctx).id ∈ (a.expiring kind ctx).map Request.id ↔
        (request.advance ctx).isExpired := hexpiring.trans (and_iff_right hfires)
    rw [Function.comp_apply, if_pos (hmatches.mp hfires), if_pos hfires, Option.guard]
    simp only [hid, decide_not]
    cases (request.advance ctx).isExpired <;> rfl
  · have hid : request.id ∉ (a.expiring kind ctx).map Request.id :=
      fun hid => hfires (hexpiring.mp hid).1
    rw [Function.comp_apply, if_neg (mt hmatches.mpr hfires), if_neg hfires, Option.guard,
      if_pos (decide_eq_true hid)]

end Table

namespace Firing

/-- A pass over the requests of a kind does as the rule says. -/
theorem perform_pass (hb : a.vm.RefsBounded)
    (hsorted : a.requests.requests.Pairwise (·.id < ·.id)) (kind : EventKind) (ctx : Context) :
    ∃ used, ((a.requests.ofKind kind).foldlM (visit ctx) { events := unrequested kind }).perform a =
      (.ok ⟨a.eventsOf kind ctx, a.policyOf kind ctx, a.expiring kind ctx⟩,
        (a.advance kind ctx).spend used) := by
  obtain ⟨used, hvisits⟩ :=
    perform_visits hb ctx { events := unrequested kind } (a.requests.ofKind kind)
  refine ⟨used, hvisits.trans ?_⟩
  have htable : ∀ fired : List Request, fired.foldl Agent.replaceRequest (a.spend used) =
      (fired.foldl Agent.replaceRequest a).spend used := by
    intro fired
    rw [foldl_replaceRequest, foldl_replaceRequest]
    rfl
  have hkind : ∀ request ∈ a.firing kind ctx, request.kind = kind := by
    intro request hmem
    have hofKind := (List.mem_filter.mp hmem).1
    exact of_decide_eq_true (List.mem_filter.mp hofKind).2
  have hevents : ((a.firing kind ctx).map (Request.advance ctx)).map
      (fun request => (⟨request.kind, request.id, ctx.details⟩ : Event)) =
        (a.firing kind ctx).map fun request => ⟨kind, request.id, ctx.details⟩ := by
    rw [List.map_map]
    apply List.map_congr_left
    intro request hmem
    simp [Request.advance, hkind request hmem]
  have hpolicies : ((a.firing kind ctx).map (Request.advance ctx)).map Request.policy =
      (a.firing kind ctx).map Request.policy := by
    rw [List.map_map]
    rfl
  rw [show (a.requests.ofKind kind).filter (a.requestFires ctx) = a.firing kind ctx from rfl]
  dsimp only
  rw [htable, foldl_replaceRequest_firing hsorted, foldl_fire, hevents, hpolicies]
  rfl

end Firing

end DebugAgent
