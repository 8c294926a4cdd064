import DebugAgent.Proofs.Session
import DebugAgent.Proofs.Wanted

/-!
# The death of the machine

The client is told of the death of the machine whether it has asked for it or not.  The session
itself needs the notification, for as long as there is one, so that requests for the same kind of
callback may come and go.  Such requests have no filters but counts, so that all of them fire.
-/

namespace DebugAgent

open DebugAgent.Action Command Registration

/-- The machine tells the agent of its death. -/
def Op.tellsDeath : Op → Bool
  | .deliver _ .vmDeath | .callback _ .vmDeath => true
  | _ => false

/-- The events of the machine's death: the one that every client is told, then one for each request
that is registered for it. -/
def Agent.deathEvents (a : Agent) : List Event :=
  ⟨.vmDeath, 0, .vmDeath⟩ ::
    (a.requests.ofKind .vmDeath).map fun request => ⟨.vmDeath, request.id, .vmDeath⟩

variable {a : Agent} {op : Op}

/-! ### Requests for the death of the machine -/

/-- Requests for the death of the machine have no filters but counts. -/
def DeathsCounted (a : Agent) : Prop :=
  ∀ request ∈ a.requests.requests, request.kind = .vmDeath → OnlyCounts request.filters

theorem OnlyCounts.advance {filters : List Filter} (h : OnlyCounts filters) (ctx : Context) :
    OnlyCounts (filters.map (Filter.advance ctx)) := by
  intro filter hmem
  obtain ⟨before, hbefore, rfl⟩ := List.mem_map.mp hmem
  have hcount := h before hbefore
  cases before with
  | count => rfl
  | _ => cases hcount

theorem DeathsCounted.apply (h : DeathsCounted a) (ho : Orderly a) (op : Op) :
    DeathsCounted (a.apply op) := by
  intro request hmem hkind
  cases turn_apply op ho with
  | left hsighting htable =>
      rw [htable] at hmem
      exact h request (List.mem_filter.mp hmem).1 hkind
  | set hsighting hid hpositive hdeath htable =>
      rw [htable] at hmem
      rcases List.mem_append.mp hmem with hmem | hnew
      · exact h request hmem hkind
      · rw [List.mem_singleton.mp hnew] at hkind ⊢
        exact hdeath hkind
  | shown hsighting hrequests htable =>
      rw [htable] at hmem
      obtain ⟨before, hbefore, hlater⟩ := List.mem_filterMap.mp hmem
      have hcounted := h before (hrequests ▸ hbefore)
      split at hlater
      · split at hlater
        · cases hlater
        · cases hlater
          exact (hcounted hkind).advance _
      · cases hlater
        exact hcounted hkind

theorem DeathsCounted.run (h : DeathsCounted a) (ho : Orderly a) (ops : List Op) :
    DeathsCounted (a.run ops) := by
  induction ops generalizing a with
  | nil => exact h
  | cons op ops ih => exact ih (h.apply ho op) (ho.leads (leads_apply op ho))

theorem fires_of_onlyCounts {request : Request} (hcounts : OnlyCounts request.filters)
    (ctx : Context) : a.requestFires ctx request := by
  refine List.all_eq_true.mpr fun filter hmem => ?_
  have hcount := hcounts filter hmem
  cases filter with
  | count => rfl
  | _ => cases hcount

/-! ### What is told -/

/-- The death of the machine is captured without a look at it. -/
theorem captured_vmDeath (hfails : a.vm.attachFails = false) (caller : NativeThread) :
    a.captured caller .vmDeath =
      (.ok { threadId := 0, details := .vmDeath }, a.setVm (a.vm.attach caller).2) := by
  rw [Agent.captured, seqRight_eq_bind, perform_bind, perform_attach hfails]
  rfl

/-- A callback about the death of the machine fires all requests for it. -/
theorem fired_vmDeath (ho : Orderly a) (hcounted : DeathsCounted a)
    (hfails : a.vm.attachFails = false) (caller : NativeThread) :
    ∃ fired, a.fired? caller .vmDeath = some fired ∧ fired.events.events = a.deathEvents := by
  let ctx : Context := { threadId := 0, details := .vmDeath }
  let seen := a.setVm (a.vm.attach caller).2
  have hfired : a.fired? caller .vmDeath = seen.firedIn? .vmDeath ctx :=
    (onCallback_of_captured ho (captured_vmDeath hfails caller)).1
  have hfiring : seen.firing .vmDeath ctx = a.requests.ofKind .vmDeath := by
    refine List.filter_eq_self.mpr fun request hmem => ?_
    obtain ⟨hregistered, hkind⟩ := List.mem_filter.mp hmem
    exact fires_of_onlyCounts (hcounted request hregistered (of_decide_eq_true hkind)) ctx
  have hevents : seen.eventsOf .vmDeath ctx = a.deathEvents := by
    rw [eventsOf_eq fun _ => rfl, hfiring]
    simp [Context.events, Agent.deathEvents, ctx]
  rw [hfired, Agent.firedIn?, Firing.Pass.fired?]
  simp only [hevents]
  exact ⟨_, rfl, rfl⟩

theorem sends_vmDeath (ho : Orderly a) (hcounted : DeathsCounted a)
    (hfails : a.vm.attachFails = false) (henabled : a.vm.isEnabled .vmDeath none)
    (htells : op.tellsDeath) :
    ∃ policy, a.sends? op = some ⟨policy, a.deathEvents⟩ := by
  have hsends : ∀ {near : Agent} {caller : NativeThread}, Orderly near →
      near.requests = a.requests → near.vm.attachFails = false →
        a.calledBack? op = some (near, caller, .vmDeath) →
          ∃ policy, a.sends? op = some ⟨policy, a.deathEvents⟩ := by
    intro near caller hnear hrequests hworks hcalled
    have hdeaths : DeathsCounted near := by
      intro request hmem
      exact hcounted request (hrequests ▸ hmem)
    obtain ⟨fired, hfired, hevents⟩ := fired_vmDeath hnear hdeaths hworks caller
    refine ⟨fired.events.suspendPolicy, ?_⟩
    rw [Agent.deathEvents, hrequests, ← Agent.deathEvents] at hevents
    simp [Agent.sends?, hcalled, hfired, ← hevents]
  cases op with
  | callback caller c =>
      cases c with
      | vmDeath => exact hsends ho rfl hfails rfl
      | _ => cases htells
  | deliver caller c =>
      cases c with
      | vmDeath =>
          have hcalled : a.calledBack? (.deliver caller .vmDeath) = some (a, caller, .vmDeath) := by
            have hdelivers : a.vm.delivers .vmDeath = true := by
              simp [Vm.delivers, Callback.kind, henabled]
            exact if_pos hdelivers
          exact hsends ho rfl hfails hcalled
      | _ => cases htells
  | _ => cases htells

/-! ### As long as there is a session -/

/-- What opens the session opens an empty one. -/
theorem session_of_attached (ho : Orderly a) {caller : NativeThread} {canDeliver : Bool}
    (hattach : (Agent.attach caller canDeliver a).1 = .ok ()) :
    (Agent.attach caller canDeliver a).2.session = some {} := by
  rw [Agent.attach] at hattach ⊢
  have hperform := perform_of_answered hattach
  rcases Registration.opening_cases canDeliver (ho.attached caller).refs with
    ⟨cause, vm, -, hopening⟩ | ⟨-, b, -, -, hopening⟩
  · cases (Prod.mk.inj (hopening.symm.trans hperform)).1
  · rw [← (Prod.mk.inj (hopening.symm.trans hperform)).2]

section Told

variable (steps : List Vm.Setup) (config : Config) (before : List Op) (opener : NativeThread)
  (canDeliver : Bool)

/-- Once a session has been opened there is no other: whoever asks for one is told so, or that the
native thread cannot be attached, and neither the session nor anything about requests changes.  It
goes on through everything that happens.  Notification of the machine's death stays enabled, and as
long as the client listens and native threads can be attached, the session gets an event set of each
callback about it, with the event that every client is told and all requests for it in order. -/
theorem death_always_told
    (hopened : (Agent.attach opener canDeliver (Agent.reached steps config before)).1 = .ok ())
    (later : List Op) :
    let a := ((Agent.reached steps config before).apply (.attach opener canDeliver)).run later
    (∀ caller canDeliver,
      let again := Agent.attach caller canDeliver a
      again.1 = .error (if a.vm.attachFails then .internal else .duplicate) ∧
        again.2.session = a.session ∧ again.2.requests = a.requests) ∧
      a.vm.isEnabled .vmDeath none ∧
      ∃ s, a.session = some s ∧
        (∀ op, (a.apply op).session = some (s.after (a.sends? op) op)) ∧
        (s.listening → a.vm.attachFails = false → ∀ op, op.tellsDeath →
          ∃ policy, (a.apply op).session =
            some { s with sets := s.sets ++ [⟨policy, a.deathEvents⟩] }) ∧
        (a.requests.ofKind .vmDeath).Pairwise (·.id < ·.id) := by
  intro a
  have hrun : a = Agent.reached steps config (before ++ .attach opener canDeliver :: later) := by
    simp [a, Agent.reached]
  have ho : Orderly a := hrun ▸ orderly_reached steps config _
  have hattached : a.isAttached := by
    refine attached_run ?_ later
    rw [Agent.isAttached, Agent.apply,
      session_of_attached (orderly_reached steps config before) hopened]
    rfl
  have hcounted : DeathsCounted a := by
    have hstart : DeathsCounted (Agent.start (Vm.built steps) config) := fun _ hmem => by cases hmem
    rw [hrun]
    exact hstart.run (orderly_reached steps config []) _
  have henabled : a.vm.isEnabled .vmDeath none := by
    rw [hrun] at hattached ⊢
    exact enabled_of_wanted (.session hattached)
  obtain ⟨s, hopen⟩ := Option.isSome_iff_exists.mp hattached
  refine ⟨fun caller canDeliver => ?_, henabled, s, hopen, session_apply hopen, ?_,
    ho.sorted.filter _⟩
  · dsimp only
    rw [attach_of_open hopen]
    cases a.vm.attachFails <;> exact ⟨rfl, rfl, rfl⟩
  · intro hlistening hfails op htells
    obtain ⟨policy, hsends⟩ := sends_vmDeath ho hcounted hfails henabled htells
    refine ⟨policy, ?_⟩
    rw [session_apply hopen, hsends]
    cases op with
    | deliver | callback => simp [Session.after, Session.receive, hlistening]
    | _ => cases htells

end Told

/-- A request for the death of the machine is set, fires once and is gone; the machine dies again and
the client is told again. -/
theorem death_told_twice :
    let death : Op := .callback (.client 1) .vmDeath
    let set : Op := .command (.client 0) (.setEvent 99 .none [.count 1])
    let opened := (Agent.reached [] {} []).apply (.attach (.client 0) true)
    let a := opened.run [set, death]
    (opened.run [set]).deathEvents = [⟨.vmDeath, 0, .vmDeath⟩, ⟨.vmDeath, 1, .vmDeath⟩] ∧
      a.deathEvents = [⟨.vmDeath, 0, .vmDeath⟩] ∧
      (Agent.attach (.client 2) true a).1 = .error .duplicate ∧
      ∃ s policy, a.session = some s ∧
        (a.apply death).session = some { s with sets := s.sets ++ [⟨policy, a.deathEvents⟩] } := by
  intro death set opened a
  obtain ⟨hrefused, -, s, hopen, -, htold, -⟩ :=
    death_always_told [] {} [] (.client 0) true (by decide +kernel) [set, death]
  have hlistening : s.listening := by
    have hsession : a.session.all Session.listening := by decide +kernel
    rwa [hopen] at hsession
  obtain ⟨policy, hset⟩ := htold hlistening (by decide +kernel) death rfl
  refine ⟨by decide +kernel, by decide +kernel, ?_, s, policy, hopen, hset⟩
  rw [(hrefused (.client 2) true).1]
  decide +kernel

/-- Where no native thread can be attached, a second session is refused for that reason. -/
theorem second_session_not_called_duplicate :
    let a := (Agent.reached [] {} []).run
      [.attach (.client 0) true, .setup (.setAttachFails true)]
    a.isAttached ∧ (Agent.attach (.client 0) true a).1 ≠ .error .duplicate := by
  decide +kernel

end DebugAgent
