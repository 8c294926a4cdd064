import DebugAgent.Proofs.Countdown

/-!
# Requests that are cleared

Identifiers of requests are given in increasing order, and none is given twice.  So a request that is
not registered any more never comes back: whether it was cleared by its kind and identifier, cleared
with all breakpoints, or gone because its counts were used up, its identifier is not registered again
and stands in no later event set.
-/

namespace DebugAgent

open DebugAgent.Action Command Registration

/-- The request that a reply tells the client of. -/
def Reply.request? : Reply → Option RequestId
  | .request id => some id
  | _ => none

/-- The command asks for a new request. -/
def ClientCommand.sets : ClientCommand → Bool
  | .setEvent _ _ _ | .setBreakpoint _ _ => true
  | _ => false

namespace Agent

/-- The identifier that an operation gives to the request that it sets. -/
def gives? (a : Agent) : Op → Option RequestId
  | .command caller command =>
      match (serve caller command a).1 with
      | .ok reply => reply.request?
      | .error _ => none
  | _ => none

/-- The identifiers that are given to requests in a run, the first one first. -/
def given (a : Agent) : List Op → List RequestId
  | [] => []
  | op :: ops => (a.gives? op).toList ++ (a.apply op).given ops

/-- What the client is told when it asks to clear a request of a kind that there is, and what that
leaves behind.  A request of this kind under this identifier is taken out of the table, all others
stay.  Where there is none the only thing that happens is that the native thread is attached, which
is nothing at all if it was attached before. -/
def ClearsByKind (a : Agent) (caller : NativeThread) (kind : EventKind) (id : RequestId) : Prop :=
  let cleared := serve caller (.clearEvent kind.code id) a
  let others := a.requests.requests.filter fun request => request.id ≠ id
  let registered := ∃ request ∈ a.requests.requests, request.id = id ∧ request.kind = kind
  (registered → cleared.1 = .ok .done ∧ cleared.2.requests.requests = others) ∧
    (¬ registered → cleared.1 = .error .notFound ∧ cleared.2 = a.setVm (a.vm.attach caller).2 ∧
      ((a.vm.attached.get? caller).isSome → cleared.2 = a))

end Agent

variable {a b : Agent} {α β : Type} {kind : EventKind} {id : RequestId}

/-! ### Identifiers are given in order -/

/-- Only commands that set a request tell the client of one. -/
theorem returns_ofClient (caller : NativeThread) {command : ClientCommand}
    (hsets : command.sets = false) :
    (ofClient caller command).Returns fun reply => reply.request? = none := by
  have hdone : ∀ x : Command Unit, (done x).Returns fun reply => reply.request? = none :=
    fun x => returns_after fun _ => returns_pure rfl
  cases command with
  | setEvent | setBreakpoint => cases hsets
  | suspend | resume | disposeObjects | suspendThread | resumeThread | clearEvent | clearBreakpoint
  | clearAllBreakpoints => exact hdone _
  | capabilities =>
      intro a r b hperform
      cases hperform
      rfl
  | reserved =>
      intro a r b hperform
      cases hperform
  | signatureWithGeneric | threadStatus => exact returns_after fun _ => returns_pure rfl
  | _ => exact returns_map _ _ fun _ => rfl

/-- What a command answers with, it returned once its native thread was attached. -/
theorem perform_of_answered {caller : NativeThread} {x : Command α} {r : α}
    (hanswer : (answer caller x a).1 = .ok r) :
    x.perform (a.setVm (a.vm.attach caller).2) = (.ok r, (answer caller x a).2) := by
  cases hfails : a.vm.attachFails with
  | true =>
      rw [answer_of_not_attaching hfails] at hanswer
      cases hanswer
  | false =>
      rw [answer_of_attaching hfails] at hanswer ⊢
      generalize x.perform (a.setVm (a.vm.attach caller).2) = outcome at hanswer ⊢
      obtain ⟨stop | result, b⟩ := outcome
      · cases hanswer
      · cases hanswer
        rfl

/-- An identifier is given with the request that is registered under it. -/
theorem registered_of_gives (ho : Orderly a) {op : Op} (hgives : a.gives? op = some id) :
    id = a.requests.nextId ∧ id < (a.apply op).requests.nextId := by
  have hafter : Orderly (a.apply op) := ho.leads (leads_apply op ho)
  cases op with
  | command caller command =>
      rw [Agent.gives?] at hgives
      split at hgives
      · rename_i reply hreply
        have hrequest : reply = .request id := by
          cases reply <;> cases hgives
          rfl
        rw [hrequest] at hreply
        have hsetting : ∀ {kindCode policy modifiers}, Agent.serve caller command =
            Agent.serve caller (.setEvent kindCode policy modifiers) →
              id = a.requests.nextId ∧ id < (a.apply (.command caller command)).requests.nextId := by
          intro kindCode policy modifiers hserve
          rw [Agent.apply] at hafter ⊢
          rw [hserve] at hreply hafter ⊢
          obtain ⟨request, hmem, rfl, hnext, -⟩ := registered_of_set ho hreply
          exact ⟨hnext, hafter.fresh request hmem⟩
        cases hsets : command.sets with
        | true =>
            cases command with
            | setEvent kindCode policy modifiers => exact hsetting rfl
            | setBreakpoint location policy =>
                exact @hsetting EventKind.breakpoint.code policy [.locationOnly location] rfl
            | _ => cases hsets
        | false =>
            have hreturns := returns_ofClient caller hsets
            have hserve : Agent.serve caller command = answer caller (ofClient caller command) ∨
                command = .capabilities := by
              cases command <;> first | exact .inr rfl | exact .inl rfl
            rcases hserve with hserve | rfl
            · rw [hserve] at hreply
              cases hreturns _ _ _ (perform_of_answered hreply)
            · cases hreply
      · cases hgives
  | _ => cases hgives

/-- The identifiers that are given in a run lie past those given before it, and each of them lies past
the ones before it. -/
theorem given_increasing (ho : Orderly a) (ops : List Op) :
    (a.given ops).Pairwise (· < ·) ∧ ∀ id ∈ a.given ops, a.requests.nextId ≤ id := by
  induction ops generalizing a with
  | nil => exact ⟨.nil, fun id hmem => by cases hmem⟩
  | cons op ops ih =>
      obtain ⟨hrest, hpast⟩ := ih (ho.leads (leads_apply op ho))
      have hgrows := nextId_le_apply ho op
      rw [Agent.given]
      cases hgives : a.gives? op with
      | none => exact ⟨hrest, fun id hmem => Int.le_trans hgrows (hpast id hmem)⟩
      | some first =>
          obtain ⟨hnext, hlt⟩ := registered_of_gives ho hgives
          constructor
          · refine List.pairwise_cons.mpr ⟨fun id hmem => ?_, hrest⟩
            exact Int.lt_of_lt_of_le hlt (hpast id hmem)
          · intro id hmem
            rcases List.mem_cons.mp hmem with rfl | hmem
            · exact Int.le_of_eq hnext.symm
            · exact Int.le_trans hgrows (hpast id hmem)

/-- Identifiers of registered requests are positive. -/
def IdsPositive (a : Agent) : Prop :=
  1 ≤ a.requests.nextId ∧ ∀ request ∈ a.requests.requests, 1 ≤ request.id

theorem IdsPositive.apply (h : IdsPositive a) (ho : Orderly a) (op : Op) :
    IdsPositive (a.apply op) := by
  refine ⟨Int.le_trans h.1 (nextId_le_apply ho op), fun request hmem => ?_⟩
  cases turn_apply op ho with
  | left hsighting htable =>
      rw [htable] at hmem
      exact h.2 request (List.mem_filter.mp hmem).1
  | set hsighting hid hpositive hdeath htable =>
      rw [htable] at hmem
      rcases List.mem_append.mp hmem with hmem | hnew
      · exact h.2 request hmem
      · rw [List.mem_singleton.mp hnew, hid]
        exact h.1
  | shown hsighting hrequests htable =>
      rw [htable] at hmem
      obtain ⟨before, hbefore, hlater⟩ := List.mem_filterMap.mp hmem
      rw [id_of_remaining hlater]
      exact h.2 before (hrequests ▸ hbefore)

theorem IdsPositive.run (h : IdsPositive a) (ho : Orderly a) (ops : List Op) :
    IdsPositive (a.run ops) := by
  induction ops generalizing a with
  | nil => exact h
  | cons op ops ih => exact ih (h.apply ho op) (ho.leads (leads_apply op ho))

theorem Past.idsPositive (past : Past) : IdsPositive past.agent :=
  past.invariant (fun _ _ => ⟨Int.le_refl 1, fun _ hmem => by cases hmem⟩) (fun _ _ h => h)
    fun _ op ho h => h.apply ho op

theorem idsPositive_reached (steps : List Vm.Setup) (config : Config) (ops : List Op) :
    IdsPositive (Agent.reached steps config ops) := by
  rw [Agent.reached_eq]
  exact Past.idsPositive _

/-! ### Clearing -/

theorem attach_of_attached {vm : Vm} {caller : NativeThread}
    (hattached : (vm.attached.get? caller).isSome) : (vm.attach caller).2 = vm := by
  obtain ⟨id, hid⟩ := Option.isSome_iff_exists.mp hattached
  rw [Vm.attach, hid]

theorem clearsByKind (ho : Orderly a) (hfails : a.vm.attachFails = false) (caller : NativeThread)
    (kind : EventKind) (id : RequestId) : a.ClearsByKind caller kind id := by
  have hserve : Agent.serve caller (.clearEvent kind.code id) =
      answer caller (done (EventRequest.clear kind.code id)) := rfl
  have hclear : ∀ near : Agent, (EventRequest.clear kind.code id).perform near =
      (Registration.clear kind id).perform near := by
    intro near
    simp [EventRequest.clear, perform_bind, Action.ofExcept, EventKind.ofCode_code]
  let near := a.setVm (a.vm.attach caller).2
  have hnear : Orderly near := ho.attached caller
  have hlocated : near.requests = a.requests := rfl
  rw [Agent.ClearsByKind, hserve, answer_of_attaching hfails]
  simp only [done, perform_bind, hclear]
  constructor
  · rintro ⟨request, hmem, rfl, rfl⟩
    obtain ⟨b, -, hremoved, hremove⟩ := perform_remove hnear hmem rfl rfl
    have hfound : near.requests.find? request.id = some request :=
      (find?_eq_some_iff hnear).mpr ⟨hmem, rfl⟩
    have hperform : (Registration.clear request.kind request.id).perform near = (.ok (), b) := by
      simp [Registration.clear, perform_bind, hfound, hremove]
    rw [hperform]
    refine ⟨rfl, hremoved.left.trans ?_⟩
    simp [hlocated]
  · intro hno
    have hperform : (Registration.clear kind id).perform near =
        (.error (.refused .notFound), near) := by
      cases hfound : near.requests.find? id with
      | none => simp [Registration.clear, perform_bind, hfound]
      | some request =>
          obtain ⟨hmem, hid⟩ := (find?_eq_some_iff hnear).mp hfound
          have hkind : request.kind ≠ kind := fun hkind => hno ⟨request, hmem, hid, hkind⟩
          simp [Registration.clear, perform_bind, hfound, hkind]
    rw [hperform]
    refine ⟨rfl, rfl, fun hattached => ?_⟩
    change a.setVm (a.vm.attach caller).2 = a
    rw [attach_of_attached hattached]
    rfl

/-! ### Cleared for good -/

theorem not_contains_iff : ¬ a.requests.contains id ↔ a.requests.find? id = none := by
  simp [RequestTable.contains]

/-- Identifiers of requests are positive and given in increasing order.  The client clears a request
if and only if it names it with its kind; otherwise it is told so and nothing happens.  A request that
has been registered and is registered no more, by whatever it was cleared, is never registered again,
and no callback fires it. -/
theorem cleared_requests_stay_cleared (past : Past) (ops : List Op) :
    let start := past.agent
    let a := start.run ops
    ((start.given ops).Pairwise (· < ·) ∧ ∀ id ∈ start.given ops, 0 < id) ∧
      (a.vm.attachFails = false → ∀ caller kind id, a.ClearsByKind caller kind id) ∧
      ∀ id, a.requests.contains id → ∀ between, ¬ (a.run between).requests.contains id →
        ∀ later, let b := (a.run between).run later
          ¬ b.requests.contains id ∧ ∀ op, id ∉ b.fires op := by
  intro start a
  have hstart : Orderly start := past.inOrder.toOrderly
  have ha : Orderly a := hstart.run ops
  have hids : IdsPositive start := past.idsPositive
  refine ⟨?_, fun hfails caller kind id => clearsByKind ha hfails caller kind id, ?_⟩
  · obtain ⟨hincreasing, hpast⟩ := given_increasing hstart ops
    refine ⟨hincreasing, fun id hmem => ?_⟩
    exact Int.lt_of_lt_of_le Int.zero_lt_one (Int.le_trans hids.1 (hpast id hmem))
  · intro id hregistered between hcleared later b
    have hbetween : Orderly (a.run between) := ha.run between
    obtain ⟨request, hfound⟩ := Option.isSome_iff_exists.mp hregistered
    obtain ⟨hmem, rfl⟩ := (find?_eq_some_iff ha).mp hfound
    have hold : request.id < (a.run between).requests.nextId :=
      Int.lt_of_lt_of_le (ha.fresh request hmem) (nextId_le_of_unfolds (unfolds_run ha between))
    have hgone : ∀ rest, ((a.run between).run rest).requests.find? request.id = none :=
      find?_run_of_gone hbetween hold (not_contains_iff.mp hcleared)
    refine ⟨not_contains_iff.mpr (hgone later), fun op hfires => ?_⟩
    have hrequested : request.id ≠ 0 :=
      Int.ne_of_gt (Int.lt_of_lt_of_le Int.zero_lt_one ((hids.run hstart ops).2 request hmem))
    obtain ⟨fired, hfired, -⟩ := (mem_fires_iff (hbetween.run later) op hrequested).mp hfires
    rw [hgone later] at hfired
    cases hfired

/-- A breakpoint is set, cleared and set again at the same place: the new request has an identifier of
its own, and a hit fires the new request alone. -/
theorem breakpoint_set_again :
    let start := Past.twoThreads.agent
    let set : Op := .command (.client 0) (.setBreakpoint ⟨.classType, 4, 0x1000, 4⟩ .none)
    let clear : Op := .command (.client 0) (.clearEvent 2 1)
    let hit : Op := .deliver (.client 0) (.breakpoint 10 0x1000 4)
    let again := ((start.run [set]).run [clear]).run [set]
    start.given [set, clear, set] = [1, 2] ∧ (start.given [set, clear, set]).Pairwise (· < ·) ∧
      (start.run [set]).ClearsByKind (.client 0) .breakpoint 1 ∧
      again.fires hit = [2] ∧ 1 ∉ again.fires hit ∧ ¬ again.requests.contains 1 := by
  intro start set clear hit again
  obtain ⟨⟨hincreasing, -⟩, -⟩ := cleared_requests_stay_cleared Past.twoThreads [set, clear, set]
  obtain ⟨-, hclears, hstays⟩ := cleared_requests_stay_cleared Past.twoThreads [set]
  obtain ⟨hgone, hsilent⟩ := hstays 1 (by decide +kernel) [clear] (by decide +kernel) [set]
  exact ⟨by decide +kernel, hincreasing, hclears (by decide +kernel) (.client 0) .breakpoint 1,
    by decide +kernel, hsilent hit, hgone⟩

end DebugAgent
