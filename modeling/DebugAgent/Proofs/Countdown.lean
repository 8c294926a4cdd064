import DebugAgent.Proofs.Turns

/-!
# Requests that fire a number of times

A request with counts fires on the first callbacks that its other filters accept, as many as the
least of its counts says, and on no others.  Callbacks that another filter rejects do not count.
Whatever else happens in between, the request stays registered until it has fired the last time, and
then it is removed in the same way as the client clears a request.
-/

namespace DebugAgent

open DebugAgent.Action Command Registration
open Relation (ReflTransGen)

/-- All filters of the request but its counts accept what is seen. -/
def Sighting.accepts (sighting : Sighting) (request : Request) : Bool :=
  request.kind = sighting.kind &&
    (request.filters.filter fun filter => filter.count?.isNone).all
      (Filter.accepts sighting.seen.vm sighting.seen.tracker sighting.ctx
        (sighting.seen.requests.stepThread? request))

namespace Agent

/-- What is seen in an operation, if the request's filters other than counts accept it. -/
def accepted? (a : Agent) (request : Request) (op : Op) : Option Context :=
  match a.sighting? op with
  | some sighting => if sighting.accepts request then some sighting.ctx else none
  | none => none

/-- What the request's filters other than counts accept in a run.  The request takes note of each:
a step goes on from where it has come. -/
def acceptances (a : Agent) (request : Request) : List Op → List Context
  | [] => []
  | op :: ops =>
      match a.accepted? request op with
      | some ctx => ctx :: (a.apply op).acceptances (request.advance ctx) ops
      | none => (a.apply op).acceptances request ops

/-- The client does not clear the request in a run. -/
def spares (a : Agent) (request : Request) : List Op → Bool
  | [] => true
  | op :: ops => !a.clears request op && (a.apply op).spares request ops

end Agent

/-- The request as it is after it has taken note of callbacks. -/
def Request.after (request : Request) (accepted : List Context) : Request :=
  accepted.foldl (fun request ctx => request.advance ctx) request

/-- The least count of the request: it fires so many times more. -/
def Request.Lasts (request : Request) (times : Int) : Prop :=
  times ∈ request.counts ∧ ∀ count ∈ request.counts, times ≤ count

/-- What a callback leaves behind is what the client leaves by clearing the requests that expire with
it, after those that fire have taken note. -/
def Sighting.ExpiresAsCleared (sighting : Sighting) (after : Agent) : Prop :=
  ∃ used cleared,
    ((sighting.seen.expiring sighting.kind sighting.ctx).forM fun request =>
        Command.EventRequest.clear request.kind.code request.id : Command Unit).perform
      ((sighting.seen.advance sighting.kind sighting.ctx).spend used) = (.ok (), cleared) ∧
    SameRequests cleared after

variable {a b : Agent} {request : Request} {op : Op} {times : Int}

/-! ### Counting down -/

namespace Request

theorem counts_advance (ctx : Context) (request : Request) :
    (request.advance ctx).counts = request.counts.map fun count => count - 1 := by
  rw [counts, counts, advance, List.filterMap_map, List.map_filterMap]
  apply List.filterMap_congr
  intro filter _
  cases filter with
  | step state =>
      simp only [Function.comp_apply, Filter.advance]
      cases ctx.point? <;> rfl
  | _ => rfl

theorem counts_after (request : Request) (accepted : List Context) :
    (request.after accepted).counts =
      request.counts.map fun count : Int => count - accepted.length := by
  induction accepted generalizing request with
  | nil => simp [after]
  | cons ctx accepted ih =>
      have hrest := ih (request.advance ctx)
      rw [after, List.foldl_cons]
      rw [after] at hrest
      rw [hrest, counts_advance, List.map_map]
      apply List.map_congr_left
      intro count _
      simp only [Function.comp_apply, List.length_cons]
      omega

theorem isExpired_iff : request.isExpired ↔ ∃ count ∈ request.counts, count ≤ 0 := by
  rw [isExpired, List.any_eq_true]
  constructor
  · rintro ⟨filter, hmem, hexhausted⟩
    cases filter with
    | count remaining =>
        exact ⟨remaining, List.mem_filterMap.mpr ⟨_, hmem, rfl⟩, of_decide_eq_true hexhausted⟩
    | _ => cases hexhausted
  · rintro ⟨count, hmem, hle⟩
    obtain ⟨filter, hmem, hcount⟩ := List.mem_filterMap.mp hmem
    refine ⟨filter, hmem, ?_⟩
    cases filter with
    | count remaining =>
        cases hcount
        exact decide_eq_true hle
    | _ => cases hcount

theorem Lasts.advance (h : request.Lasts times) (ctx : Context) :
    (request.advance ctx).Lasts (times - 1) := by
  obtain ⟨hmem, hleast⟩ := h
  rw [Lasts, counts_advance]
  refine ⟨List.mem_map_of_mem hmem, fun count hcount => ?_⟩
  obtain ⟨before, hbefore, rfl⟩ := List.mem_map.mp hcount
  exact Int.sub_le_sub_right (hleast before hbefore) 1

theorem Lasts.after (h : request.Lasts times) (accepted : List Context) :
    (request.after accepted).Lasts (times - accepted.length) := by
  obtain ⟨hmem, hleast⟩ := h
  rw [Lasts, counts_after]
  refine ⟨List.mem_map_of_mem hmem, fun count hcount => ?_⟩
  obtain ⟨before, hbefore, rfl⟩ := List.mem_map.mp hcount
  exact Int.sub_le_sub_right (hleast before hbefore) _

theorem Lasts.isExpired_iff (h : request.Lasts times) : request.isExpired ↔ times ≤ 0 := by
  rw [Request.isExpired_iff]
  constructor
  · rintro ⟨count, hmem, hle⟩
    exact Int.le_trans (h.2 count hmem) hle
  · exact fun hle => ⟨times, h.1, hle⟩

end Request

theorem spares_advance (ctx : Context) (ops : List Op) :
    a.spares (request.advance ctx) ops = a.spares request ops := by
  induction ops generalizing a with
  | nil => rfl
  | cons op ops ih =>
      rw [Agent.spares, ih]
      rfl

/-! ### A request in an operation -/

/-- Counts accept everything, so a request fires if and only if its other filters accept. -/
theorem accepts_iff {sighting : Sighting} : sighting.accepts request ↔
    request.kind = sighting.kind ∧ sighting.seen.requestFires sighting.ctx request := by
  have hcounts : ∀ filter : Filter,
      (!filter.count?.isNone || filter.accepts sighting.seen.vm sighting.seen.tracker sighting.ctx
        (sighting.seen.requests.stepThread? request)) =
      filter.accepts sighting.seen.vm sighting.seen.tracker sighting.ctx
        (sighting.seen.requests.stepThread? request) := by
    intro filter
    cases filter <;> rfl
  simp only [Sighting.accepts, List.all_filter, hcounts, Bool.and_eq_true, decide_eq_true_eq,
    Agent.requestFires, Request.fires]

theorem accepted?_eq_some {ctx : Context} : a.accepted? request op = some ctx ↔
    ∃ sighting, a.sighting? op = some sighting ∧ sighting.accepts request ∧ sighting.ctx = ctx := by
  rw [Agent.accepted?]
  cases a.sighting? op with
  | none => simp
  | some sighting => cases haccepts : sighting.accepts request <;> simp [haccepts]

/-- Where requests keep their identifiers, what has become of a request is found by it. -/
theorem find?_filterMap {requests : List Request} {f : Request → Option Request}
    (hid : ∀ request later, f request = some later → later.id = request.id)
    (hsorted : requests.Pairwise (·.id < ·.id)) (hmem : request ∈ requests) :
    (requests.filterMap f).find? (fun later => later.id = request.id) = f request := by
  induction requests with
  | nil => cases hmem
  | cons first rest ih =>
      obtain ⟨hfirst, hrest⟩ := List.pairwise_cons.mp hsorted
      rw [List.filterMap_cons]
      rcases List.mem_cons.mp hmem with rfl | hmem
      · cases hlater : f request with
        | some later => exact List.find?_cons_of_pos (by simp [hid request later hlater])
        | none =>
            apply List.find?_eq_none.mpr
            intro later hlater
            obtain ⟨other, hother, hlater⟩ := List.mem_filterMap.mp hlater
            have hne : other.id ≠ request.id := (Int.ne_of_lt (hfirst other hother)).symm
            simpa [hid other later hlater] using hne
      · have hne : first.id ≠ request.id := Int.ne_of_lt (hfirst request hmem)
        cases hlater : f first with
        | none => exact ih hrest hmem
        | some later =>
            have hlast := ih hrest hmem
            rwa [List.find?_cons_of_neg (by simpa [hid first later hlater] using hne)]

/-- A request that a callback leaves in the table has kept its identifier. -/
theorem id_of_remaining {kind : EventKind} {ctx : Context} {later : Request}
    (hlater : (if request ∈ a.firing kind ctx then
        if (request.advance ctx).isExpired then none else some (request.advance ctx)
      else some request) = some later) : later.id = request.id := by
  split at hlater
  · split at hlater
    · cases hlater
    · cases hlater
      rfl
  · cases hlater
    rfl

/-- What becomes of a registered request in an operation: if the client does not clear it, it takes
note of the callback that it accepts, if there is one, and is gone if that uses it up. -/
theorem find?_apply (ho : Orderly a) (hmem : request ∈ a.requests.requests)
    (hspared : a.clears request op = false) :
    (a.apply op).requests.find? request.id =
      match a.accepted? request op with
      | some ctx => if (request.advance ctx).isExpired then none else some (request.advance ctx)
      | none => some request := by
  have hafter : Orderly (a.apply op) := ho.leads (leads_apply op ho)
  cases turn_apply op ho with
  | left hsighting htable =>
      rw [Agent.accepted?, hsighting]
      refine (find?_eq_some_iff hafter).mpr ⟨?_, rfl⟩
      rw [htable]
      exact List.mem_filter.mpr ⟨hmem, by simp [hspared]⟩
  | set hsighting hid hpositive hdeath htable =>
      rw [Agent.accepted?, hsighting]
      refine (find?_eq_some_iff hafter).mpr ⟨?_, rfl⟩
      rw [htable]
      exact List.mem_append_left _ hmem
  | @shown sighting hsighting hrequests htable =>
      have hfiring : request ∈ sighting.seen.firing sighting.kind sighting.ctx ↔
          sighting.accepts request := by
        rw [mem_firing, hrequests, accepts_iff]
        exact and_iff_right hmem
      rw [RequestTable.find?, htable, Agent.remaining, hrequests, find?_filterMap ?_ ho.sorted hmem]
      · simp only [Agent.accepted?, hsighting, hfiring]
        cases sighting.accepts request <;> rfl
      · exact fun request later hlater => id_of_remaining hlater

/-- Identifiers of requests are handed out in order. -/
theorem nextId_le_of_unfolds (h : Unfolds a b) : a.requests.nextId ≤ b.requests.nextId := by
  induction h with
  | refl => exact Int.le_refl _
  | tail _ hstep ih =>
      refine Int.le_trans ih ?_
      rcases hstep with hchange | hengagement
      · cases hchange with
        | machine | recount | enrol | forget | advance | session => exact Int.le_refl _
        | remove hmem hreleases hdisables =>
            obtain ⟨set, counts, rfl⟩ := hreleases.eq
            obtain ⟨thread, enabled, held, rfl⟩ := hdisables.eq
            exact Int.le_refl _
      · cases hengagement with
        | request hneeded hholds henables =>
            obtain ⟨set, counts, rfl⟩ := hholds.eq
            obtain ⟨vm, enabled, held, hkeeps, rfl⟩ := henables.eq
            exact Int.le_of_lt (Int.lt_succ _)
        | session hnone henables =>
            obtain ⟨vm, enabled, held, hkeeps, rfl⟩ := henables.eq
            exact Int.le_refl _

theorem nextId_le_apply (ho : Orderly a) (op : Op) :
    a.requests.nextId ≤ (a.apply op).requests.nextId :=
  nextId_le_of_unfolds (leads_apply op ho).unfolds

/-- A request that is gone does not come back. -/
theorem find?_apply_of_gone {id : RequestId} (ho : Orderly a) (hold : id < a.requests.nextId)
    (hgone : a.requests.find? id = none) : (a.apply op).requests.find? id = none := by
  rw [find?_eq_none_iff] at hgone ⊢
  intro request hmem
  cases turn_apply op ho with
  | left hsighting htable =>
      rw [htable] at hmem
      exact hgone request (List.mem_filter.mp hmem).1
  | set hsighting hid hpositive hdeath htable =>
      rw [htable] at hmem
      rcases List.mem_append.mp hmem with hmem | hnew
      · exact hgone request hmem
      · rw [List.mem_singleton.mp hnew, hid]
        exact (Int.ne_of_lt hold).symm
  | shown hsighting hrequests htable =>
      rw [htable] at hmem
      obtain ⟨before, hbefore, hlater⟩ := List.mem_filterMap.mp hmem
      have hid : request.id = before.id := id_of_remaining hlater
      rw [hid]
      exact hgone before (hrequests ▸ hbefore)

/-- A request that is registered under an identifier handed out before was registered before.  It
has taken note of the callback that it accepted, if there was one. -/
theorem find?_before_apply {id : RequestId} {later : Request} (ho : Orderly a)
    (hold : id < a.requests.nextId) (hlater : (a.apply op).requests.find? id = some later) :
    ∃ request, a.requests.find? id = some request ∧
      later = (a.accepted? request op).elim request request.advance := by
  have hafter : Orderly (a.apply op) := ho.leads (leads_apply op ho)
  obtain ⟨hmem, hid⟩ := (find?_eq_some_iff hafter).mp hlater
  cases turn_apply op ho with
  | left hsighting htable =>
      rw [htable] at hmem
      refine ⟨later, (find?_eq_some_iff ho).mpr ⟨(List.mem_filter.mp hmem).1, hid⟩, ?_⟩
      rw [Agent.accepted?, hsighting]
      rfl
  | set hsighting hnext hpositive hdeath htable =>
      rw [htable] at hmem
      rcases List.mem_append.mp hmem with hmem | hnew
      · refine ⟨later, (find?_eq_some_iff ho).mpr ⟨hmem, hid⟩, ?_⟩
        rw [Agent.accepted?, hsighting]
        rfl
      · rw [List.mem_singleton.mp hnew, hnext] at hid
        exact absurd hid (Int.ne_of_gt hold)
  | @shown sighting hsighting hrequests htable =>
      rw [htable] at hmem
      obtain ⟨request, hbefore, hremains⟩ := List.mem_filterMap.mp hmem
      have hsame : later.id = request.id := id_of_remaining hremains
      have hfiring : request ∈ sighting.seen.firing sighting.kind sighting.ctx ↔
          sighting.accepts request := by
        rw [mem_firing, accepts_iff]
        exact and_iff_right hbefore
      rw [hrequests] at hbefore
      refine ⟨request, (find?_eq_some_iff ho).mpr ⟨hbefore, hsame.symm.trans hid⟩, ?_⟩
      simp only [Agent.accepted?, hsighting]
      simp only [hfiring] at hremains
      cases haccepts : sighting.accepts request with
      | false =>
          rw [haccepts] at hremains
          exact (Option.some.inj hremains).symm
      | true =>
          rw [haccepts] at hremains
          simp only [if_true] at hremains ⊢
          split at hremains
          · cases hremains
          · exact (Option.some.inj hremains).symm

theorem find?_run_of_gone {id : RequestId} (ho : Orderly a) (hold : id < a.requests.nextId)
    (hgone : a.requests.find? id = none) (ops : List Op) :
    (a.run ops).requests.find? id = none := by
  induction ops generalizing a with
  | nil => exact hgone
  | cons op ops ih =>
      exact ih (ho.leads (leads_apply op ho)) (Int.lt_of_lt_of_le hold (nextId_le_apply ho op))
        (find?_apply_of_gone ho hold hgone)

/-! ### A request in a run -/

/-- A request is registered as long as it has accepted fewer callbacks than it lasts. -/
theorem find?_run (ho : Orderly a) (hmem : request ∈ a.requests.requests)
    (hlasts : request.Lasts times) (hpositive : 0 < times) {ops : List Op}
    (hspares : a.spares request ops) :
    (a.run ops).requests.find? request.id =
      if (a.acceptances request ops).length < times then
        some (request.after (a.acceptances request ops))
      else none := by
  induction ops generalizing a request times with
  | nil =>
      have hfound := (find?_eq_some_iff ho).mpr ⟨hmem, rfl⟩
      simp [Agent.acceptances, Request.after, hpositive, hfound]
  | cons op ops ih =>
      obtain ⟨hspared, hspares⟩ := Bool.and_eq_true_iff.mp hspares
      have hafter : Orderly (a.apply op) := ho.leads (leads_apply op ho)
      have hstep := find?_apply ho hmem (by simpa using hspared)
      rw [Agent.run_cons, Agent.acceptances]
      cases haccepted : a.accepted? request op with
      | none =>
          rw [haccepted] at hstep
          exact ih hafter ((find?_eq_some_iff hafter).mp hstep).1 hlasts hpositive hspares
      | some ctx =>
          rw [haccepted] at hstep
          dsimp only at hstep ⊢
          have hrest : (request.advance ctx).Lasts (times - 1) := hlasts.advance ctx
          by_cases hlast : times = 1
          · -- the last one: the request is gone, whatever it would go on to accept
            rw [if_pos (hrest.isExpired_iff.mpr (by omega))] at hstep
            have hold : request.id < (a.apply op).requests.nextId :=
              Int.lt_of_lt_of_le (ho.fresh request hmem) (nextId_le_apply ho op)
            rw [find?_run_of_gone hafter hold hstep, if_neg]
            simp only [List.length_cons]
            omega
          · rw [if_neg (by rw [hrest.isExpired_iff]; omega)] at hstep
            have hlater := ih hafter ((find?_eq_some_iff hafter).mp hstep).1 hrest (by omega)
              ((spares_advance ctx ops).trans hspares)
            have hcount : ∀ count : Nat,
                ((count + 1 : Nat) : Int) < times ↔ (count : Int) < times - 1 := by
              omega
            simp only [List.length_cons, hcount]
            exact hlater

/-! ### What an operation fires -/

theorem events_of_firedIn (a : Agent) (kind : EventKind) (ctx : Context) :
    ((a.firedIn? kind ctx).elim [] fun fired => fired.events.events) = a.eventsOf kind ctx := by
  rw [Agent.firedIn?, Firing.Pass.fired?]
  split
  · rename_i hempty
    exact (List.isEmpty_iff.mp hempty).symm
  · rfl

/-- What is told without a request is under no identifier of one. -/
theorem requestId_of_unrequested {kind : EventKind} {event : Event}
    (hmem : event ∈ Firing.unrequested kind) : event.requestId = 0 := by
  cases kind with
  | vmDeath => rw [List.mem_singleton.mp hmem]
  | _ => cases hmem

/-- An operation fires a registered request if and only if all of its filters but counts accept. -/
theorem mem_fires_iff (ho : Orderly a) (op : Op) {id : RequestId} (hid : id ≠ 0) :
    id ∈ a.fires op ↔
      ∃ request, a.requests.find? id = some request ∧ (a.accepted? request op).isSome := by
  have hunrequested : ∀ kind, id ∉ (Firing.unrequested kind).map Event.requestId := by
    intro kind hmem
    obtain ⟨event, hevent, rfl⟩ := List.mem_map.mp hmem
    exact hid (requestId_of_unrequested hevent)
  rw [Agent.fires]
  simp only [Agent.accepted?, Agent.sighting?]
  cases hcalled : a.calledBack? op with
  | none => simp
  | some call =>
      obtain ⟨near, caller, c⟩ := call
      obtain ⟨hnear, hrequests, -⟩ := calledBack ho hcalled
      cases hcaptured : near.captured caller c with
      | mk outcome seen =>
          cases outcome with
          | error stop =>
              have hnone := (onCallback_of_not_captured hnear hcaptured).1
              simp [Agent.firedEvents, hnone, hcaptured]
          | ok ctx =>
              have hseen : seen.requests = a.requests := by
                have hleaves := (captured_leaves near caller c).1
                rw [hcaptured] at hleaves
                exact hleaves.trans hrequests
              have hfired := (onCallback_of_captured hnear hcaptured).1
              simp only [Agent.firedEvents, hfired, events_of_firedIn, Agent.eventsOf, hcaptured,
                List.map_append, List.mem_append, hunrequested, false_or, List.map_map,
                List.mem_map, Function.comp_apply]
              constructor
              · rintro ⟨request, hfires, rfl⟩
                obtain ⟨hmem, hkind, hfires⟩ := mem_firing.mp hfires
                refine ⟨request, (find?_eq_some_iff ho).mpr ⟨hseen ▸ hmem, rfl⟩, ?_⟩
                rw [if_pos (accepts_iff.mpr ⟨hkind, hfires⟩)]
                rfl
              · rintro ⟨request, hfound, haccepted⟩
                obtain ⟨hmem, rfl⟩ := (find?_eq_some_iff ho).mp hfound
                split at haccepted
                · rename_i haccepts
                  exact ⟨request, mem_firing.mpr ⟨hseen ▸ hmem, accepts_iff.mp haccepts⟩, rfl⟩
                · cases haccepted

/-! ### What is left of counts -/

/-- Every count of a registered request has something left. -/
def CountsLeft (a : Agent) : Prop :=
  ∀ request ∈ a.requests.requests, ∀ count ∈ request.counts, 1 ≤ count

theorem CountsLeft.apply (h : CountsLeft a) (ho : Orderly a) (op : Op) :
    CountsLeft (a.apply op) := by
  intro request hmem
  cases turn_apply op ho with
  | left hsighting htable =>
      rw [htable] at hmem
      exact h request (List.mem_filter.mp hmem).1
  | set hsighting hid hpositive hdeath htable =>
      rw [htable] at hmem
      rcases List.mem_append.mp hmem with hmem | hnew
      · exact h request hmem
      · rw [List.mem_singleton.mp hnew]
        exact hpositive
  | shown hsighting hrequests htable =>
      rw [htable] at hmem
      obtain ⟨before, hbefore, hlater⟩ := List.mem_filterMap.mp hmem
      split at hlater
      · split at hlater
        · cases hlater
        · rename_i hleft
          cases hlater
          intro count hcount
          by_contra hnot
          exact hleft (Request.isExpired_iff.mpr ⟨count, hcount, by omega⟩)
      · cases hlater
        exact h _ (hrequests ▸ hbefore)

theorem CountsLeft.run (h : CountsLeft a) (ho : Orderly a) (ops : List Op) :
    CountsLeft (a.run ops) := by
  induction ops generalizing a with
  | nil => exact h
  | cons op ops ih => exact ih (h.apply ho op) (ho.leads (leads_apply op ho))

theorem Past.countsLeft (past : Past) : CountsLeft past.agent :=
  past.invariant (fun _ _ _ hmem => by cases hmem) (fun _ _ h => h) fun _ op ho h => h.apply ho op

theorem Past.nextId_pos (past : Past) : 1 ≤ past.agent.requests.nextId :=
  @Past.invariant (fun a => 1 ≤ a.requests.nextId) (fun _ _ => Int.le_refl 1) (fun _ _ h => h)
    (fun _ op ho h => Int.le_trans h (nextId_le_apply ho op)) past

/-! ### The last callback -/

theorem perform_clear (ho : Orderly a) (hmem : request ∈ a.requests.requests) :
    (EventRequest.clear request.kind.code request.id).perform a =
      (Registration.remove request).perform a := by
  have hfound : a.requests.find? request.id = some request := find?_of_mem ho.sorted hmem
  simp [EventRequest.clear, Registration.clear, perform_bind, Action.ofExcept,
    EventKind.ofCode_code, hfound]

/-- Registered requests are removed as they are cleared. -/
theorem perform_clears {requests : List Request} (ho : Orderly a)
    (hmem : ∀ request ∈ requests, request ∈ a.requests.requests)
    (hdistinct : requests.Pairwise (·.id ≠ ·.id)) :
    (requests.forM fun request =>
        EventRequest.clear request.kind.code request.id : Command Unit).perform a =
      (requests.forM Registration.remove : Command Unit).perform a := by
  induction requests generalizing a with
  | nil => rfl
  | cons request requests ih =>
      have hfirst := hmem request List.mem_cons_self
      obtain ⟨hother, hrest⟩ := List.pairwise_cons.mp hdistinct
      obtain ⟨b, -, hremoved, hremove⟩ := perform_remove ho hfirst rfl rfl
      have hleft : ∀ later ∈ requests, later ∈ b.requests.requests := by
        intro later hlater
        rw [hremoved.left]
        refine List.mem_filter.mpr ⟨hmem later (List.mem_cons_of_mem _ hlater), ?_⟩
        simpa using (hother later hlater).symm
      have hlater := ih (ho.evolves hremoved.evolves) hleft hrest
      simpa [perform_bind, perform_clear ho hfirst, hremove] using hlater

/-- Where a request of its kind is registered, a callback that can be captured goes through the table.
-/
theorem passed_of_captured {seen : Agent} {ctx : Context} {caller : NativeThread}
    {c : Callback Handle} (ho : Orderly a) (hcaptured : a.captured caller c = (.ok ctx, seen))
    (hmem : request ∈ a.requests.requests) (hkind : request.kind = c.kind.eventKind) :
    ∃ b, Passed seen c.kind.eventKind ctx b ∧ SameRequests b (a.onCallback caller c) := by
  have hanswered := answered caller c ho
  have hsent := a.onCallback_eq caller c
  generalize answer caller (Firing.process c) a = outcome at hanswered hsent
  generalize a.fired? caller c = fired at hanswered hsent
  obtain ⟨result, b⟩ := outcome
  dsimp only at hanswered hsent
  cases hanswered with
  | skipped hnone =>
      have hin : request ∈ a.requests.ofKind c.kind.eventKind :=
        List.mem_filter.mpr ⟨hmem, decide_eq_true hkind⟩
      rw [hnone] at hin
      cases hin
  | failed hfailed => cases hfailed.symm.trans hcaptured
  | passed hok hpassed =>
      cases hok.symm.trans hcaptured
      refine ⟨b, hpassed, ?_⟩
      rw [hsent]
      cases seen.firedIn? c.kind.eventKind ctx with
      | none => exact .refl b
      | some fired => exact sameRequests_send fired b

theorem expiresAsCleared (ho : Orderly a) {sighting : Sighting}
    (hsighting : a.sighting? op = some sighting) (hmem : request ∈ a.requests.requests)
    (haccepts : sighting.accepts request) : sighting.ExpiresAsCleared (a.apply op) := by
  obtain ⟨kind, ctx, seen⟩ := sighting
  obtain ⟨near, caller, c, hcalled, hcaptured, rfl⟩ := Agent.sighting?_eq_some hsighting
  obtain ⟨hnear, hrequests, hsame⟩ := calledBack ho hcalled
  obtain ⟨b, hpassed, hleft⟩ := passed_of_captured hnear hcaptured (hrequests ▸ hmem)
    (accepts_iff.mp haccepts).1
  obtain ⟨used, hremoves⟩ := hpassed.removal
  have hseen : Orderly seen := by
    have hevolves := evolves_captured caller c hnear
    rw [hcaptured] at hevolves
    exact hnear.evolves hevolves
  have hadvanced : Orderly ((seen.advance c.kind.eventKind ctx).spend used) :=
    hseen.evolves (.tail (.single (.advance _ ctx)) (.machine (Vm.conserves_spend _ used)))
  refine ⟨used, b, ?_, hleft.trans hsame⟩
  exact (perform_clears hadvanced (fun _ => mem_of_expiring)
    (pairwise_expiring hseen.sorted _ ctx)).trans hremoves

/-! ### From the first callback to the last -/

/-- A request that has been set is registered with the counts of its modifiers. -/
theorem registered_of_set {caller : NativeThread} {kindCode : Nat} {policy : SuspendPolicy}
    {modifiers : List EventModifier} {id : RequestId} (ho : Orderly a)
    (hset : (Agent.serve caller (.setEvent kindCode policy modifiers) a).1 = .ok (.request id)) :
    ∃ request ∈ (Agent.serve caller (.setEvent kindCode policy modifiers) a).2.requests.requests,
      request.id = id ∧ id = a.requests.nextId ∧
      request.counts = modifiers.filterMap EventModifier.times? ∧
      ∀ count ∈ request.counts, 0 < count := by
  have hserve : Agent.serve caller (.setEvent kindCode policy modifiers) =
      answer caller (Reply.request <$> EventRequest.set kindCode policy modifiers) := rfl
  rw [hserve] at hset ⊢
  cases hfails : a.vm.attachFails with
  | true =>
      rw [answer_of_not_attaching hfails] at hset
      cases hset
  | false =>
      have hnear := ho.attached caller
      have hnext : a.requests.nextId = (a.setVm (a.vm.attach caller).2).requests.nextId := rfl
      rw [answer_of_attaching hfails] at hset ⊢
      rw [hnext]
      rw [perform_map] at hset ⊢
      generalize a.setVm (a.vm.attach caller).2 = near at hnear hset ⊢
      cases hkind : EventKind.ofCode kindCode with
      | error cause =>
          simp [EventRequest.set, perform_bind, Action.ofExcept, hkind, Except.map] at hset
      | ok kind =>
          have hregisters := registers_set hkind policy modifiers hnear
          generalize (EventRequest.set kindCode policy modifiers).perform near = outcome
            at hregisters hset ⊢
          cases hregisters with
          | refused htable => cases hset
          | @added request b hid hsort hcounts hpositive hdeath htable =>
              cases hset
              refine ⟨request, ?_, rfl, hid, hcounts, hpositive⟩
              rw [htable]
              exact List.mem_append_right _ List.mem_cons_self

/-- An agent with a session and two threads that stand at the same position.  Its client knows them
as 1 and 2, and their class as 4. -/
def Past.twoThreads : Past where
  steps := [.defineClass "LMain;",
    .addMethod 9 { name := "main", signature := "()V", start := 0, finish := 8 },
    .spawnThread "first", .spawnThread "second", .pushFrame 10 0x1000 4, .pushFrame 11 0x1000 4]
  config := {}
  incidents := [.op (.attach (.client 0) true), .op (.command (.client 0) .allThreads),
    .op (.command (.client 0) (.classesBySignature "LMain;"))]

/-- A request that is set with counts, and that the client does not clear, fires on the first
callbacks that its other filters accept, as many as the least of the counts says, and on no others.
Until then it is registered and its counts say how often it has fired; then it is gone, and all that
it needed is given up as it is for requests that the client clears.  No count of a registered request
is ever used up. -/
theorem counted_request_fires_first (past : Past) (caller : NativeThread) (kindCode : Nat)
    (policy : SuspendPolicy) (modifiers : List EventModifier) {id : RequestId} {times : Int}
    (hset : (Agent.serve caller (.setEvent kindCode policy modifiers) past.agent).1 =
      .ok (.request id))
    (htimes : times ∈ modifiers.filterMap EventModifier.times?)
    (hleast : ∀ count ∈ modifiers.filterMap EventModifier.times?, times ≤ count) :
    let a := (Agent.serve caller (.setEvent kindCode policy modifiers) past.agent).2
    ∃ request, a.requests.find? id = some request ∧ ∀ ops, a.spares request ops →
      let b := a.run ops
      let accepted := a.acceptances request ops
      let now := request.after accepted
      b.requests.find? id = (if accepted.length < times then some now else none) ∧
      now.counts = (modifiers.filterMap EventModifier.times?).map
        (fun count : Int => count - accepted.length) ∧
      (∀ registered ∈ b.requests.requests, ∀ count ∈ registered.counts, 1 ≤ count) ∧
      (∀ op, id ∈ b.fires op ↔ accepted.length < times ∧ (b.accepted? now op).isSome) ∧
      ∀ op sighting, b.sighting? op = some sighting → sighting.accepts now →
        accepted.length + 1 = times →
          (b.apply op).requests.find? id = none ∧
          now.advance sighting.ctx ∈ sighting.seen.expiring sighting.kind sighting.ctx ∧
          sighting.ExpiresAsCleared (b.apply op) := by
  intro a
  have ho : Orderly past.agent := past.inOrder.toOrderly
  have hopened : Orderly a := ho.leads (leads_serve caller _ ho)
  have hleft : CountsLeft a := past.countsLeft.apply ho (.command caller _)
  obtain ⟨request, hmem, rfl, hnext, hcounts, hpositive⟩ := registered_of_set ho hset
  have hid : request.id ≠ 0 :=
    Int.ne_of_gt (Int.lt_of_lt_of_le Int.zero_lt_one (hnext ▸ past.nextId_pos))
  have hlasts : request.Lasts times := by
    rw [Request.Lasts, hcounts]
    exact ⟨htimes, hleast⟩
  refine ⟨request, (find?_eq_some_iff hopened).mpr ⟨hmem, rfl⟩, fun ops hspares => ?_⟩
  intro b accepted now
  have hb : Orderly b := hopened.run ops
  have hfound : b.requests.find? request.id = _ :=
    find?_run hopened hmem hlasts (hpositive times hlasts.1) hspares
  refine ⟨hfound, hcounts ▸ request.counts_after accepted, hleft.run hopened ops, fun op => ?_, ?_⟩
  · rw [mem_fires_iff hb op hid, hfound]
    by_cases hmore : (accepted.length : Int) < times
    · simp [hmore, accepted, now]
    · simp [hmore, accepted]
  · intro op sighting hsighting haccepts hlast
    have hmore : (accepted.length : Int) < times := by omega
    rw [if_pos hmore] at hfound
    obtain ⟨hin, hnow⟩ := (find?_eq_some_iff hb).mp hfound
    have hexpired : (now.advance sighting.ctx).isExpired :=
      ((hlasts.after accepted).advance sighting.ctx).isExpired_iff.mpr (by omega)
    refine ⟨?_, ?_, expiresAsCleared hb hsighting hin haccepts⟩
    · have haccepted : b.accepted? now op = some sighting.ctx :=
        accepted?_eq_some.mpr ⟨sighting, hsighting, haccepts, rfl⟩
      have hgone := find?_apply hb hin (clears_of_sighting hsighting _)
      rw [haccepted, hnow] at hgone
      exact hgone.trans (if_pos hexpired)
    · have hfires : now ∈ sighting.seen.firing sighting.kind sighting.ctx :=
        mem_firing.mpr ⟨requests_of_sighting hb hsighting ▸ hin, accepts_iff.mp haccepts⟩
      exact List.mem_filter.mpr ⟨List.mem_map_of_mem hfires, hexpired⟩

/-- A breakpoint for one of two threads with counts of two and three: it is hit twice by this thread,
and hits by the other one do not count. -/
theorem breakpoint_hit_twice :
    let modifiers : List EventModifier :=
      [.count 2, .threadOnly 1, .count 3, .locationOnly ⟨.classType, 4, 0x1000, 4⟩]
    let a := (Agent.serve (.client 0) (.setEvent 2 .none modifiers) Past.twoThreads.agent).2
    let hit (thread : HeapId) : Op := .deliver (.client 0) (.breakpoint thread 0x1000 4)
    1 ∉ a.fires (hit 11) ∧ 1 ∈ (a.run [hit 11, hit 10]).fires (hit 10) ∧
      (a.run [hit 11, hit 10, hit 10]).requests.find? 1 = none ∧
      (a.run [hit 11, hit 10, hit 10]).vm.breakpoints = [] ∧
      1 ∉ (a.run [hit 11, hit 10, hit 10]).fires (hit 10) := by
  intro modifiers a hit
  obtain ⟨request, hfound, hruns⟩ := @counted_request_fires_first Past.twoThreads (.client 0) 2
    .none modifiers 1 2 (by decide +kernel) (by decide) (by decide)
  have hset : a.requests.find? 1 = some ⟨1, .breakpoint, .none,
      [.count 2, .threadOnly 1, .count 3, .locationOnly 0x1000 4],
      ⟨some (0x1000, 4), (.breakpoint, none)⟩⟩ := by decide +kernel
  cases hfound.symm.trans hset
  obtain ⟨-, -, -, hfirst, -⟩ := hruns [] (by decide +kernel)
  obtain ⟨-, -, -, hsecond, -⟩ := hruns [hit 11, hit 10] (by decide +kernel)
  obtain ⟨hgone, -, -, hthird, -⟩ := hruns [hit 11, hit 10, hit 10] (by decide +kernel)
  exact ⟨mt (hfirst (hit 11)).mp (by decide +kernel), (hsecond (hit 10)).mpr (by decide +kernel),
    hgone.trans (by decide +kernel), by decide +kernel, mt (hthird (hit 10)).mp (by decide +kernel)⟩

end DebugAgent
