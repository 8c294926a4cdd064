import DebugAgent.Proofs.Past

/-!
# What a callback sends

If what a callback says can be captured, it fires the registered requests of its kind whose filters
all accept it, whatever else is registered.  Together they make one event set under the strongest of
their policies, and the table of requests takes note.  If it cannot be captured, nothing happens
that the client or a request could tell.

Whether the callback is looked at in the first place, which filters are tested and in which order,
and when requests that expire are removed makes no difference to this rule.
-/

namespace DebugAgent

open Command

variable {a seen after : Agent} {kind : EventKind} {ctx : Context}

/-! ### The strongest policy -/

namespace SuspendPolicy

theorem code_le_strongest (p q : SuspendPolicy) :
    p.code ≤ (p.strongest q).code ∧ q.code ≤ (p.strongest q).code := by
  rw [strongest, isWeaker]
  split
  · rename_i hlt
    exact ⟨Nat.le_of_lt (of_decide_eq_true hlt), Nat.le_refl _⟩
  · rename_i hle
    exact ⟨Nat.le_refl _, Nat.le_of_not_lt (mt decide_eq_true hle)⟩

/-- No policy is stronger than the strongest one. -/
theorem code_le_foldl_strongest (policies : List SuspendPolicy) (p : SuspendPolicy) :
    ∀ q ∈ p :: policies, q.code ≤ (policies.foldl strongest p).code := by
  induction policies generalizing p with
  | nil =>
      intro q hmem
      exact Nat.le_of_eq (congrArg code (List.mem_singleton.mp hmem))
  | cons next policies ih =>
      intro q hmem
      obtain ⟨hp, hnext⟩ := code_le_strongest p next
      have hboth := ih (p.strongest next) _ List.mem_cons_self
      rcases List.mem_cons.mp hmem with rfl | hmem
      · exact Nat.le_trans hp hboth
      · rcases List.mem_cons.mp hmem with rfl | hmem
        · exact Nat.le_trans hnext hboth
        · exact ih _ q (List.mem_cons_of_mem _ hmem)

/-- The strongest policy is one of those given. -/
theorem foldl_strongest_mem (policies : List SuspendPolicy) (p : SuspendPolicy) :
    policies.foldl strongest p ∈ p :: policies := by
  induction policies generalizing p with
  | nil => exact List.mem_singleton_self p
  | cons next policies ih =>
      have hone : p.strongest next = p ∨ p.strongest next = next := by
        rw [strongest]
        split
        · exact .inr rfl
        · exact .inl rfl
      rcases List.mem_cons.mp (ih (p.strongest next)) with hfirst | hmem
      · rw [List.foldl_cons, hfirst]
        rcases hone with heq | heq <;> simp [heq]
      · exact List.mem_cons_of_mem _ (List.mem_cons_of_mem _ hmem)

end SuspendPolicy

/-! ### The rule -/

/-- The events of an occurrence, one for each request, all with the same details.  The death of the
machine is also told without a request, under the identifier 0. -/
def Context.events (ctx : Context) (kind : EventKind) (matching : List Request) : List Event :=
  ((if kind = EventKind.vmDeath then [0] else []) ++ matching.map Request.id).map fun id =>
    ⟨kind, id, ctx.details⟩

/-- A callback is answered by the rule.  It finds the agent in the state `a`, and `seen` is the state
once it is captured; `matching` are the requests that it fires, and `policy` is what they come to. -/
structure FiresByRule (a seen : Agent) (kind : EventKind) (ctx : Context) (matching : List Request)
    (policy : SuspendPolicy) (fired? : Option Fired) (after : Agent) : Prop where
  /-- The registered requests of the kind fire all of whose filters accept, counts apart. -/
  mem : ∀ request, request ∈ matching ↔
    request ∈ a.requests.requests ∧ request.kind = kind ∧
      ∀ filter ∈ request.filters, (∀ remaining, filter ≠ .count remaining) →
        filter.accepts seen.vm seen.tracker ctx (a.requests.stepThread? request)
  increasing : matching.Pairwise (·.id < ·.id)
  /-- No policy of theirs is stronger, and it is one of theirs unless it is none at all. -/
  strongest : (∀ request ∈ matching, policy.isWeaker request.policy = false) ∧
    (policy = .none ∨ ∃ request ∈ matching, request.policy = policy)
  /-- The set reaches the session.  Where there is none nothing is sent. -/
  sent : after.session = match fired? with
    | some fired => a.session.map (Session.receive fired.events)
    | none => a.session
  fired : fired? = if ctx.events kind matching = [] then none
    else some ⟨⟨policy, ctx.events kind matching⟩, policy.target? ctx.threadId⟩
  /-- Requests that fire take note of it and are gone if that uses them up.  All others stay as they
  are. -/
  table : after.requests.requests = a.requests.requests.filterMap fun request =>
    if request ∈ matching then
      if (request.advance ctx).isExpired then none else some (request.advance ctx)
    else some request

theorem requestFires_iff {request : Request} :
    a.requestFires ctx request ↔
      ∀ filter ∈ request.filters, (∀ remaining, filter ≠ .count remaining) →
        filter.accepts a.vm a.tracker ctx (a.requests.stepThread? request) := by
  rw [Agent.requestFires, Request.fires, List.all_eq_true]
  constructor
  · exact fun hall filter hmem _ => hall filter hmem
  · intro hall filter hmem
    cases filter with
    | count remaining => rfl
    | threadOnly | classOnly | classMatch | classExclude | locationOnly | exceptionOnly | step
    | instanceOnly => exact hall _ hmem fun _ h => Filter.noConfusion h

theorem eventsOf_eq (hdeath : kind = .vmDeath → ctx.details = .vmDeath) :
    a.eventsOf kind ctx = ctx.events kind (a.firing kind ctx) := by
  rw [Agent.eventsOf, Context.events, List.map_append, List.map_map]
  refine congrArg (· ++ _) ?_
  cases kind with
  | vmDeath => simp [Firing.unrequested, hdeath]
  | _ => rfl

theorem firedIn?_eq (hdeath : kind = .vmDeath → ctx.details = .vmDeath) :
    a.firedIn? kind ctx =
      if ctx.events kind (a.firing kind ctx) = [] then none
      else some ⟨⟨a.policyOf kind ctx, ctx.events kind (a.firing kind ctx)⟩,
        (a.policyOf kind ctx).target? ctx.threadId⟩ := by
  rw [Agent.firedIn?, Firing.Pass.fired?, eventsOf_eq hdeath]
  simp only [List.isEmpty_iff]

theorem policyOf_strongest :
    (∀ request ∈ a.firing kind ctx, (a.policyOf kind ctx).isWeaker request.policy = false) ∧
      (a.policyOf kind ctx = .none ∨
        ∃ request ∈ a.firing kind ctx, request.policy = a.policyOf kind ctx) := by
  let policies := (a.firing kind ctx).map Request.policy
  constructor
  · intro request hmem
    have hle := SuspendPolicy.code_le_foldl_strongest policies .none request.policy
      (List.mem_cons_of_mem _ (List.mem_map_of_mem hmem))
    exact decide_eq_false (Nat.not_lt_of_le hle)
  · rcases List.mem_cons.mp (SuspendPolicy.foldl_strongest_mem policies .none) with hnone | hmem
    · exact .inl hnone
    · obtain ⟨request, hfires, hpolicy⟩ := List.mem_map.mp hmem
      exact .inr ⟨request, hfires, hpolicy⟩

/-- The rule for the requests that fire in the state in which the callback is captured. -/
theorem firesByRule (hrequests : seen.requests = a.requests)
    (hsorted : a.requests.requests.Pairwise (·.id < ·.id))
    (hdeath : kind = .vmDeath → ctx.details = .vmDeath)
    (hsent : after.session = match seen.firedIn? kind ctx with
      | some fired => a.session.map (Session.receive fired.events)
      | none => a.session)
    (htable : after.requests.requests = seen.remaining kind ctx) :
    FiresByRule a seen kind ctx (seen.firing kind ctx) (seen.policyOf kind ctx)
      (seen.firedIn? kind ctx) after where
  mem := fun request => by rw [mem_firing, requestFires_iff, hrequests]
  increasing := firing_pairwise (hrequests ▸ hsorted) kind ctx
  strongest := policyOf_strongest
  sent := hsent
  fired := firedIn?_eq hdeath
  table := by rw [htable, Agent.remaining, hrequests]

/-! ### Callbacks -/

/-- Where no request of the kind is registered, the rule fires none. -/
theorem firing_eq_nil (hnone : a.requests.ofKind kind = []) : a.firing kind ctx = [] := by
  rw [Agent.firing, hnone, List.filter_nil]

theorem details_of_vmDeath {caller : NativeThread} {c : Callback Handle}
    (hcaptured : a.captured caller c = (.ok ctx, seen)) (hkind : c.kind.eventKind = .vmDeath) :
    ctx.details = .vmDeath := by
  cases c with
  | vmDeath =>
      rw [Agent.captured, seqRight_eq_bind, Action.perform_bind] at hcaptured
      split at hcaptured
      · cases hcaptured
        rfl
      · cases hcaptured
  | _ => cases hkind

/-- A callback that is not looked at is answered by the rule, which fires nothing. -/
theorem firesByRule_of_skipped (hrequests : seen.requests = a.requests)
    (hsorted : a.requests.requests.Pairwise (·.id < ·.id))
    (hdeath : kind = .vmDeath → ctx.details = .vmDeath)
    (hnone : a.requests.ofKind kind = []) (hunrequested : Firing.unrequested kind = [])
    (hleft : after.requests = a.requests ∧ after.session = a.session) :
    FiresByRule a seen kind ctx (seen.firing kind ctx) (seen.policyOf kind ctx) none after := by
  have hfiring : seen.firing kind ctx = [] := firing_eq_nil (hrequests ▸ hnone)
  have hfired : seen.firedIn? kind ctx = none := by
    simp [Agent.firedIn?, Firing.Pass.fired?, Agent.eventsOf, hfiring, hunrequested]
  have htable : seen.remaining kind ctx = a.requests.requests := by
    simp [Agent.remaining, hfiring, hrequests]
  rw [← hfired]
  apply firesByRule hrequests hsorted hdeath
  · rw [hfired]
    exact hleft.2
  · rw [hleft.1, htable]

/-- A callback that has gone through the table is answered by the rule, once what has fired is sent. -/
theorem firesByRule_of_passed {b : Agent} (hrequests : seen.requests = a.requests)
    (hsession : seen.session = a.session)
    (hsorted : a.requests.requests.Pairwise (·.id < ·.id))
    (hdeath : kind = .vmDeath → ctx.details = .vmDeath) (hpassed : Passed seen kind ctx b)
    (hafter : after = match seen.firedIn? kind ctx with
      | some fired => Delivery.send fired b
      | none => b) :
    FiresByRule a seen kind ctx (seen.firing kind ctx) (seen.policyOf kind ctx)
      (seen.firedIn? kind ctx) after := by
  apply firesByRule hrequests hsorted hdeath
  · rw [hafter, ← hsession, ← hpassed.session]
    cases seen.firedIn? kind ctx with
    | none => rfl
    | some fired => exact (send_leaves fired b).2
  · rw [hafter, ← hpassed.table]
    cases seen.firedIn? kind ctx with
    | none => rfl
    | some fired => rw [(send_leaves fired b).1]

/-- Every callback that can be captured is answered by the rule.  Of one that cannot, neither the
session nor the table of requests learns anything. -/
theorem callback_fires_by_rule (past : Past) (caller : NativeThread) (c : Callback Handle) :
    let a := past.agent
    let after := a.onCallback caller c
    match a.captured caller c with
    | (.ok ctx, seen) => ∃ matching policy,
        FiresByRule a seen c.kind.eventKind ctx matching policy (a.fired? caller c) after
    | (.error _, _) =>
        a.fired? caller c = none ∧ after.session = a.session ∧ after.requests = a.requests := by
  intro a after
  have ho : InOrder a := past.inOrder
  obtain ⟨hrequests, hsession⟩ := captured_leaves a caller c
  have hanswered := answered caller c ho.toOrderly
  have hafter : after = _ := Agent.onCallback_eq a caller c
  generalize answer caller (Firing.process c) a = outcome at hanswered hafter
  obtain ⟨result, b⟩ := outcome
  dsimp only at hanswered hafter
  generalize hcaptured : a.captured caller c = captured at hrequests hsession
  obtain ⟨captured, seen⟩ := captured
  generalize a.fired? caller c = fired? at hanswered hafter ⊢
  cases hanswered with
  | skipped hnone hunrequested =>
      rw [hafter]
      cases captured with
      | error stop => exact ⟨rfl, rfl, rfl⟩
      | ok ctx =>
          exact ⟨_, _, firesByRule_of_skipped hrequests ho.sorted (details_of_vmDeath hcaptured)
            hnone hunrequested ⟨rfl, rfl⟩⟩
  | failed hfailed =>
      cases hfailed.symm.trans hcaptured
      rw [hafter]
      exact ⟨rfl, hsession, hrequests⟩
  | passed hok hpassed =>
      cases hok.symm.trans hcaptured
      exact ⟨_, _, firesByRule_of_passed hrequests hsession ho.sorted
        (details_of_vmDeath hcaptured) hpassed hafter⟩

end DebugAgent
