import DebugAgent.Proofs.Setting

/-!
# What becomes of registered requests

An operation does one of three things to the table of requests.  Those that the client clears are
taken out and the others are left as they are; or one request is added under the next identifier; or
what a callback says is shown to all of them, and the table is left as the rule of firing says.
`Turn` lists the three with what is known in each, so that facts about the table after a run are
proved case by case from it.
-/

namespace DebugAgent

open DebugAgent.Action Command Registration Tracking
open Relation (ReflTransGen)

/-! ### What requests are shown and who clears them -/

/-- What is seen of a callback: its kind, what has been captured of it, and the state then. -/
structure Sighting where
  kind : EventKind
  ctx : Context
  seen : Agent

namespace Agent

/-- The state in which an operation has the agent called back, the native thread that it is called
on, and the callback with the references that it carries. -/
def calledBack? (a : Agent) : Op → Option (Agent × NativeThread × Callback Handle)
  | .callback caller c => some (a, caller, c)
  | .deliver caller c =>
      let (carried, vm) := a.vm.enterCallback c
      if a.vm.delivers c then some (a.setVm vm, caller, carried) else none
  | _ => none

/-- What registered requests are shown in an operation: there is a callback, its native thread can
be attached and what it says can be captured. -/
def sighting? (a : Agent) (op : Op) : Option Sighting :=
  match a.calledBack? op with
  | some (near, caller, c) =>
      match near.captured caller c with
      | (.ok ctx, seen) => some ⟨c.kind.eventKind, ctx, seen⟩
      | (.error _, _) => none
  | none => none

theorem sighting?_eq_some {a : Agent} {op : Op} {kind : EventKind} {ctx : Context} {seen : Agent}
    (h : a.sighting? op = some ⟨kind, ctx, seen⟩) :
    ∃ near caller c, a.calledBack? op = some (near, caller, c) ∧
      near.captured caller c = (.ok ctx, seen) ∧ kind = c.kind.eventKind := by
  rw [sighting?] at h
  split at h
  · rename_i near caller c hcalled
    split at h
    · rename_i hcaptured
      cases h
      exact ⟨near, caller, c, hcalled, hcaptured, rfl⟩
    · cases h
  · cases h

/-- The requests that an operation fires, by the identifiers in its event set. -/
def fires (a : Agent) (op : Op) : List RequestId :=
  match a.calledBack? op with
  | some (near, caller, c) => (near.firedEvents caller c).map Event.requestId
  | none => []

end Agent

/-- A command to clear the request, by its kind and identifier or with all other breakpoints. -/
def ClientCommand.clears (request : Request) : ClientCommand → Bool
  | .clearEvent kindCode id => kindCode = request.kind.code && id = request.id
  | .clearBreakpoint id => request.kind = .breakpoint && id = request.id
  | .clearAllBreakpoints => request.kind = .breakpoint
  | _ => false

/-- The client clears the request, which is registered, and the command can be carried out. -/
def Agent.clears (a : Agent) (request : Request) : Op → Bool
  | .command _ command =>
      !a.vm.attachFails && a.requests.contains request.id && command.clears request
  | _ => false

/-- What an operation does to the registered requests. -/
inductive Turn (a : Agent) (op : Op) (b : Agent) : Prop where
  | left (hsighting : a.sighting? op = none)
      (htable : b.requests.requests =
        a.requests.requests.filter fun request => !a.clears request op)
  | set {request : Request} (hsighting : a.sighting? op = none)
      (hid : request.id = a.requests.nextId) (hpositive : ∀ count ∈ request.counts, 0 < count)
      (hdeath : request.kind = .vmDeath → OnlyCounts request.filters)
      (htable : b.requests.requests = a.requests.requests ++ [request])
  | shown {sighting : Sighting} (hsighting : a.sighting? op = some sighting)
      (hrequests : sighting.seen.requests = a.requests)
      (htable : b.requests.requests = sighting.seen.remaining sighting.kind sighting.ctx)

variable {a b : Agent}

/-! ### What has nothing to do with requests -/

/-- Nothing is done about requests: the same ones are registered, and the machine has been asked for
the same. -/
structure SameRequests (a b : Agent) : Prop where
  requests : b.requests = a.requests
  breakpoints : b.vm.breakpoints = a.vm.breakpoints
  notifications : b.vm.notifications = a.vm.notifications

namespace SameRequests

variable {c : Agent}

theorem refl (a : Agent) : SameRequests a a := ⟨rfl, rfl, rfl⟩

theorem trans (h : SameRequests a b) (h' : SameRequests b c) : SameRequests a c where
  requests := h'.requests.trans h.requests
  breakpoints := h'.breakpoints.trans h.breakpoints
  notifications := h'.notifications.trans h.notifications

theorem setVm {vm : Vm} (hbreakpoints : vm.breakpoints = a.vm.breakpoints)
    (hnotifications : vm.notifications = a.vm.notifications) : SameRequests a (a.setVm vm) :=
  ⟨rfl, hbreakpoints, hnotifications⟩

theorem touch {vm : Vm} (h : a.vm.Touch vm) : SameRequests a (a.setVm vm) := by
  cases h with
  | frame hframe => exact .setVm hframe.breakpoints hframe.notifications
  | openRef object => exact .setVm rfl rfl
  | closeRef h =>
      have hsteady := Vm.steady_deleteRef a.vm .localRef h
      exact .setVm hsteady.breakpoints hsteady.notifications

theorem inspection {may : Control → Prop} (h : Inspection may a b) : SameRequests a b := by
  cases h with
  | glance h => exact .touch h.touch
  | attach _ caller => exact .touch (.frame (Vm.frame_attach caller))
  | halt _ h => exact .touch h.touch
  | resume _ h => exact .touch h.touch
  | recount | enrol => exact ⟨rfl, rfl, rfl⟩

theorem forget (id : ObjectId) (entry : Tracked) (a : Agent) :
    SameRequests a (Tracking.forget id entry a) where
  requests := rfl
  breakpoints := (Vm.steady_deleteRef a.vm .globalRef entry.global).breakpoints
  notifications := (Vm.steady_deleteRef a.vm .globalRef entry.global).notifications

theorem of_makes {x : Command α} (hx : x.Makes SameRequests) (a : Agent) :
    SameRequests a (x.perform a).2 := by
  have hseries : ∀ {b}, ReflTransGen SameRequests a b → SameRequests a b := by
    intro b hseries
    induction hseries with
    | refl => exact .refl a
    | tail _ hlast ih => exact ih.trans hlast
  exact hseries (hx a)

end SameRequests

theorem Command.Looks.sameRequests {may : Control → Prop} {x : Command α} (hx : Looks may x) :
    x.Makes SameRequests :=
  hx.makes.mono fun _ _ => .inspection

theorem sameRequests_answer {x : Command α} (hx : x.Makes SameRequests) (caller : NativeThread)
    (a : Agent) : SameRequests a (answer caller x a).2 := by
  have hattach : (attach caller).Makes SameRequests := 
    (@Looks.attach Control.Any trivial caller).sameRequests
  rw [answer_snd]
  exact .of_makes (makes_bind hattach fun _ => hx) a

theorem sameRequests_release (id : ObjectId) : (Tracking.release id).Makes SameRequests :=
  makes_bind (makes_look _) fun _ => makes_bind (makes_require _ _) fun entry =>
    makes_change fun a => .single (.forget id entry a)

theorem sameRequests_dispose (id : ObjectId) (count : Nat) :
    (Tracking.dispose id count).Makes SameRequests := by
  refine makes_bind (makes_look _) fun _ => makes_bind (makes_require _ _) fun entry => ?_
  refine makes_ite (makes_change fun a => .single (.forget id entry a)) ?_
  exact makes_change fun _ => .single ⟨rfl, rfl, rfl⟩

theorem sameRequests_disposeObjects (requests : List DisposeRequest) :
    (Machine.disposeObjects requests).Makes SameRequests := by
  refine makes_forM (fun request => ?_) requests
  exact makes_map _ (makes_attempt (sameRequests_dispose request.objectId request.count))

/-! ### Clearing requests -/

theorem EventKind.ofCode_code (kind : EventKind) : EventKind.ofCode kind.code = .ok kind := by
  cases kind <;> rfl

theorem EventKind.code_of_ofCode {kindCode : Nat} {kind : EventKind}
    (hkind : EventKind.ofCode kindCode = .ok kind) : kind.code = kindCode := by
  rw [EventKind.ofCode] at hkind
  split at hkind
  · rename_i hfound
    cases hkind
    have hcode := List.find?_some hfound
    simpa using hcode
  · cases hkind

theorem EventKind.code_inj {kind other : EventKind} : kind.code = other.code ↔ kind = other := by
  refine ⟨fun hcode => ?_, congrArg EventKind.code⟩
  have hkind := EventKind.ofCode_code kind
  rw [hcode, EventKind.ofCode_code] at hkind
  exact (Except.ok.inj hkind).symm

/-- Registered requests have identifiers of their own. -/
theorem eq_of_id_eq (ho : Orderly a) {request other : Request}
    (hmem : request ∈ a.requests.requests) (hother : other ∈ a.requests.requests)
    (hid : other.id = request.id) : other = request := by
  have hfound := find?_of_mem ho.sorted hother
  rw [hid, find?_of_mem ho.sorted hmem] at hfound
  exact (Option.some.inj hfound).symm

theorem find?_eq_some_iff (ho : Orderly a) {request : Request} {id : RequestId} :
    a.requests.find? id = some request ↔ request ∈ a.requests.requests ∧ request.id = id := by
  constructor
  · exact fun hfound => ⟨List.mem_of_find?_eq_some hfound, by simpa using List.find?_some hfound⟩
  · rintro ⟨hmem, rfl⟩
    exact find?_of_mem ho.sorted hmem

theorem find?_eq_none_iff {id : RequestId} :
    a.requests.find? id = none ↔ ∀ request ∈ a.requests.requests, request.id ≠ id := by
  simp [RequestTable.find?, List.find?_eq_none]

/-- Clearing takes out the request with this kind and identifier, if there is one. -/
theorem table_clear (kindCode : Nat) (id : RequestId) (ho : Orderly a) :
    ((EventRequest.clear kindCode id).perform a).2.requests.requests =
      a.requests.requests.filter fun request =>
        !(kindCode = request.kind.code && id = request.id) := by
  have hsame : (∀ request ∈ a.requests.requests,
      kindCode = request.kind.code → id ≠ request.id) →
        a.requests.requests = a.requests.requests.filter fun request =>
          !(kindCode = request.kind.code && id = request.id) := by
    intro hnone
    refine (List.filter_eq_self.mpr fun request hmem => ?_).symm
    simpa [imp_iff_not_or] using hnone request hmem
  cases hkind : EventKind.ofCode kindCode with
  | error cause =>
      have hstate : ((EventRequest.clear kindCode id).perform a).2 = a := by
        simp [EventRequest.clear, perform_bind, Action.ofExcept, hkind]
      rw [hstate]
      apply hsame
      rintro request - rfl
      rw [EventKind.ofCode_code] at hkind
      cases hkind
  | ok kind =>
      have hclear : (EventRequest.clear kindCode id).perform a =
          (Registration.clear kind id).perform a := by
        simp [EventRequest.clear, perform_bind, Action.ofExcept, hkind]
      rw [hclear]
      rcases clear_cases ho kind id with
        ⟨_, hother, hperform⟩ | ⟨request, b, hfound, hsort, -, hremoved, hperform⟩
      · rw [hperform]
        apply hsame
        rintro request hmem hcode rfl
        have hfound := (find?_eq_some_iff ho).mpr ⟨hmem, rfl⟩
        rw [hcode, EventKind.ofCode_code] at hkind
        exact hother request hfound (Except.ok.inj hkind)
      · obtain ⟨hmem, rfl⟩ := (find?_eq_some_iff ho).mp hfound
        rw [hperform, hremoved.left]
        apply List.filter_congr
        intro other hother
        have hcode : other.id = request.id → kindCode = other.kind.code := by
          intro hid
          rw [eq_of_id_eq ho hmem hother hid, hsort, EventKind.code_of_ofCode hkind]
        by_cases hid : other.id = request.id
        · simp [hid, ← hcode hid]
        · simp [hid, Ne.symm hid]

theorem table_clearBreakpoints (ho : Orderly a) :
    (Registration.clearBreakpoints.perform a).2.requests.requests =
      a.requests.requests.filter fun request => !(request.kind = .breakpoint) := by
  obtain ⟨b, hremoved, hperform⟩ := perform_clearBreakpoints ho
  rw [hperform, hremoved.left]
  apply List.filter_congr
  intro request hmem
  have hcleared : request.id ∈ (a.requests.ofKind .breakpoint).map Request.id ↔
      request.kind = .breakpoint := by
    constructor
    · intro hid
      obtain ⟨other, hother, hid⟩ := List.mem_map.mp hid
      obtain ⟨hother, hkind⟩ := List.mem_filter.mp hother
      rw [← eq_of_id_eq ho hmem hother hid]
      exact of_decide_eq_true hkind
    · exact fun hkind => List.mem_map_of_mem (List.mem_filter.mpr ⟨hmem, decide_eq_true hkind⟩)
  simp only [hcleared, decide_not]

/-! ### Operations of the client -/

/-- Where no request is cleared or added and no callback comes, the table stays as it is. -/
theorem Turn.same {op : Op} (hsighting : a.sighting? op = none)
    (hclears : ∀ request, a.clears request op = false) (hrequests : b.requests = a.requests) :
    Turn a op b := by
  refine .left hsighting ?_
  rw [hrequests]
  exact (List.filter_eq_self.mpr fun request _ => by simp [hclears]).symm

theorem Orderly.attached (ho : Orderly a) (caller : NativeThread) :
    Orderly (a.setVm (a.vm.attach caller).2) :=
  ho.change (.machine (Vm.frame_attach caller).keeps)

/-- A command that clears requests as the rule says, when it is carried out. -/
theorem turn_clearing {caller : NativeThread} {command : ClientCommand} {x : Command Reply}
    (hserve : Agent.serve caller command = answer caller x) (ho : Orderly a)
    (htable : ∀ b, Orderly b → (x.perform b).2.requests.requests =
      b.requests.requests.filter fun request => !command.clears request) :
    Turn a (.command caller command) (Agent.serve caller command a).2 := by
  refine .left rfl ?_
  rw [hserve]
  cases hfails : a.vm.attachFails with
  | true =>
      rw [answer_of_not_attaching hfails]
      exact (List.filter_eq_self.mpr fun request _ => by simp [Agent.clears, hfails]).symm
  | false =>
      rw [answer_snd_of_attaching hfails, htable _ (ho.attached caller)]
      apply List.filter_congr
      intro request hmem
      have hregistered : a.requests.contains request.id = true := by
        rw [RequestTable.contains, (find?_eq_some_iff ho).mpr ⟨hmem, rfl⟩]
        rfl
      simp [Agent.clears, hfails, hregistered]

theorem turn_setting {caller : NativeThread} {command : ClientCommand} {kindCode : Nat}
    {policy : SuspendPolicy} {modifiers : List EventModifier}
    (hserve : Agent.serve caller command =
      answer caller (Reply.request <$> EventRequest.set kindCode policy modifiers))
    (hclears : ∀ request, command.clears request = false) (ho : Orderly a) :
    Turn a (.command caller command) (Agent.serve caller command a).2 := by
  have hkept : ∀ request, a.clears request (.command caller command) = false := by
    intro request
    simp [Agent.clears, hclears]
  have hsame : ∀ {b : Agent}, b.requests.requests = a.requests.requests →
      Turn a (.command caller command) b := by
    intro b htable
    refine .left rfl (htable.trans ?_)
    exact (List.filter_eq_self.mpr fun request _ => by simp [hkept]).symm
  rw [hserve]
  cases hfails : a.vm.attachFails with
  | true =>
      rw [answer_of_not_attaching hfails]
      exact hsame rfl
  | false =>
      rw [answer_snd_of_attaching hfails, perform_map]
      cases hkind : EventKind.ofCode kindCode with
      | error cause =>
          refine hsame ?_
          simp [EventRequest.set, perform_bind, Action.ofExcept, hkind, Agent.setVm]
      | ok kind =>
          have hregisters := registers_set hkind policy modifiers (ho.attached caller)
          generalize (EventRequest.set kindCode policy modifiers).perform _ = outcome at hregisters ⊢
          cases hregisters with
          | refused htable => exact hsame htable
          | added hid hsort hcounts hpositive hdeath htable =>
              exact .set rfl hid hpositive (hsort ▸ hdeath) htable

theorem clears_of_onlyLooks {command : ClientCommand} (hlooks : command.onlyLooks)
    (request : Request) : command.clears request = false := by
  cases command with
  | clearEvent | clearBreakpoint | clearAllBreakpoints => cases hlooks
  | _ => rfl

theorem turn_serve (caller : NativeThread) (command : ClientCommand) (ho : Orderly a) :
    Turn a (.command caller command) (Agent.serve caller command a).2 := by
  have hother : ∀ {command : ClientCommand}, (∀ request, command.clears request = false) →
      (ofClient caller command).Makes SameRequests →
        Agent.serve caller command = answer caller (ofClient caller command) →
          Turn a (.command caller command) (Agent.serve caller command a).2 := by
    intro command hclears hx hserve
    refine .same rfl (fun request => by simp [Agent.clears, hclears]) ?_
    rw [hserve]
    exact (sameRequests_answer hx caller a).requests
  cases command with
  | capabilities => exact .same rfl (fun _ => Bool.and_false _) rfl
  | disposeObjects requests =>
      have hx : (done (Machine.disposeObjects requests)).Makes SameRequests :=
        makes_bind (sameRequests_disposeObjects requests) fun _ => makes_pure _
      exact hother (fun _ => rfl) hx rfl
  | setEvent kindCode policy modifiers => exact turn_setting rfl (fun _ => rfl) ho
  | setBreakpoint location policy => exact turn_setting rfl (fun _ => rfl) ho
  | clearEvent kindCode id =>
      refine turn_clearing rfl ho fun b hb => ?_
      rw [ofClient, perform_done_snd, table_clear kindCode id hb]
      rfl
  | clearBreakpoint id =>
      refine turn_clearing rfl ho fun b hb => ?_
      rw [ofClient, perform_done_snd, EventRequest.clearBreakpoint, table_clear _ id hb]
      apply List.filter_congr
      intro request _
      simp [ClientCommand.clears, EventKind.code_inj, eq_comm]
  | clearAllBreakpoints =>
      refine turn_clearing rfl ho fun b hb => ?_
      rw [ofClient, perform_done_snd, table_clearBreakpoints hb]
      rfl
  | _ => exact hother (clears_of_onlyLooks rfl) (looks_ofClient caller rfl).sameRequests rfl

/-- Opening the session adds no request. -/
theorem requests_attach (caller : NativeThread) (canDeliver : Bool) (ho : Orderly a) :
    (Agent.attach caller canDeliver a).2.requests.requests = a.requests.requests := by
  rw [Agent.attach]
  cases hfails : a.vm.attachFails with
  | true => rw [answer_of_not_attaching hfails]
  | false =>
      have hnear := ho.attached caller
      rw [answer_snd_of_attaching hfails]
      change _ = (a.setVm (a.vm.attach caller).2).requests.requests
      rcases opening_cases canDeliver hnear.refs with
        ⟨cause, vm, -, hopening⟩ | ⟨-, b, henables, -, hopening⟩
      · rw [hopening]
        rfl
      · obtain ⟨vm, enabled, held, -, rfl⟩ := henables.eq
        rw [hopening]
        rfl

/-! ### Callbacks -/

section Callbacks

variable {seen : Agent} {ctx : Context} {caller : NativeThread} {c : Callback Handle} {op : Op}

/-- What a callback fires and leaves behind once it can be captured.  That is so even if no request
of its kind is registered and it is not looked at. -/
theorem onCallback_of_captured (ho : Orderly a)
    (hcaptured : a.captured caller c = (.ok ctx, seen)) :
    a.fired? caller c = seen.firedIn? c.kind.eventKind ctx ∧
      (a.onCallback caller c).requests.requests = seen.remaining c.kind.eventKind ctx := by
  have hrequests : seen.requests = a.requests := by
    have hleaves := (captured_leaves a caller c).1
    rwa [hcaptured] at hleaves
  have hanswered := answered caller c ho
  have hsent := a.onCallback_eq caller c
  generalize answer caller (Firing.process c) a = outcome at hanswered hsent
  generalize a.fired? caller c = fired at hanswered hsent ⊢
  obtain ⟨result, b⟩ := outcome
  dsimp only at hanswered hsent
  rw [hsent]
  cases hanswered with
  | skipped hnone hunrequested =>
      have hfiring : seen.firing c.kind.eventKind ctx = [] := firing_eq_nil (hrequests ▸ hnone)
      constructor
      · simp [Agent.firedIn?, Firing.Pass.fired?, Agent.eventsOf, hfiring, hunrequested]
      · simp [Agent.remaining, hfiring, hrequests, Agent.setVm]
  | failed hfailed => cases hfailed.symm.trans hcaptured
  | passed hok hpassed =>
      cases hok.symm.trans hcaptured
      refine ⟨rfl, ?_⟩
      rw [← hpassed.table]
      cases seen.firedIn? c.kind.eventKind ctx with
      | none => rfl
      | some fired => exact congrArg RequestTable.requests (send_leaves fired b).1

theorem onCallback_of_not_captured {stop : Stop ProtocolError} (ho : Orderly a)
    (hcaptured : a.captured caller c = (.error stop, seen)) :
    a.fired? caller c = none ∧ (a.onCallback caller c).requests = a.requests := by
  have hrequests := (captured_leaves a caller c).1
  rw [hcaptured] at hrequests
  have hanswered := answered caller c ho
  have hsent := a.onCallback_eq caller c
  generalize answer caller (Firing.process c) a = outcome at hanswered hsent
  generalize a.fired? caller c = fired at hanswered hsent ⊢
  obtain ⟨result, b⟩ := outcome
  dsimp only at hanswered hsent
  rw [hsent]
  cases hanswered with
  | skipped => exact ⟨rfl, rfl⟩
  | failed hfailed =>
      cases hfailed.symm.trans hcaptured
      exact ⟨rfl, hrequests⟩
  | passed hok => cases hok.symm.trans hcaptured

theorem sameRequests_send (fired : Fired) (a : Agent) :
    SameRequests a (Delivery.send fired a) := by
  rw [Delivery.send]
  split
  · exact .refl a
  · have hsuspended : SameRequests a (Delivery.suspendFor fired.suspend a) := by
      cases fired.suspend with
      | none => exact .refl a
      | some target =>
          exact sameRequests_answer (looks_applySuspension target).sameRequests .delivery a
    exact hsuspended.trans ⟨rfl, rfl, rfl⟩

theorem sameRequests_leaveCallback (c : Callback HeapId) (carried : Callback Handle) (a : Agent) :
    SameRequests a (a.setVm (a.vm.leaveCallback c carried)) := by
  obtain ⟨inCallback, refs, hleave⟩ := Vm.leaveCallback_leaves a.vm c carried
  rw [hleave]
  exact .setVm rfl rfl

/-- The agent is called back in an operation, and nothing else happens to requests in it. -/
theorem calledBack {near : Agent} (ho : Orderly a)
    (hcalled : a.calledBack? op = some (near, caller, c)) :
    Orderly near ∧ near.requests = a.requests ∧
      SameRequests (near.onCallback caller c) (a.apply op) := by
  cases op with
  | callback =>
      cases hcalled
      exact ⟨ho, rfl, .refl _⟩
  | deliver native c =>
      rw [Agent.calledBack?] at hcalled
      cases hdelivers : a.vm.delivers c with
      | false => simp [hdelivers] at hcalled
      | true =>
          simp only [hdelivers, if_true] at hcalled
          cases hcalled
          have hentered :=
            (Vm.conserves_of_touches (Vm.touch_enterCallback c a.vm) ho.refs).toKeeps
          refine ⟨ho.change (.machine hentered), rfl, ?_⟩
          rw [Agent.apply, Agent.deliver, if_pos hdelivers]
          exact sameRequests_leaveCallback _ _ _
  | _ => cases hcalled

/-- What can be captured of a callback is captured without a change to the requests. -/
theorem requests_of_sighting (ho : Orderly a) {sighting : Sighting}
    (hsighting : a.sighting? op = some sighting) : sighting.seen.requests = a.requests := by
  obtain ⟨kind, ctx, seen⟩ := sighting
  obtain ⟨near, caller, c, hcalled, hcaptured, -⟩ := Agent.sighting?_eq_some hsighting
  have hleaves := (captured_leaves near caller c).1
  rw [hcaptured] at hleaves
  exact hleaves.trans (calledBack ho hcalled).2.1

theorem clears_of_sighting {sighting : Sighting} (hsighting : a.sighting? op = some sighting)
    (request : Request) : a.clears request op = false := by
  cases op with
  | command => cases hsighting
  | _ => rfl

end Callbacks

theorem turn_apply (op : Op) (ho : Orderly a) : Turn a op (a.apply op) := by
  cases hcalled : a.calledBack? op with
  | some call =>
      obtain ⟨near, caller, c⟩ := call
      obtain ⟨hnear, hrequests, hsame⟩ := calledBack ho hcalled
      have happly := hsame.requests
      cases hcaptured : near.captured caller c with
      | mk outcome seen =>
          cases outcome with
          | error stop =>
              have hsighting : a.sighting? op = none := by
                simp [Agent.sighting?, hcalled, hcaptured]
              refine .same hsighting (fun request => ?_) ?_
              · cases op <;> first | rfl | cases hcalled
              · rw [happly, (onCallback_of_not_captured hnear hcaptured).2, hrequests]
          | ok ctx =>
              have hsighting : a.sighting? op = some ⟨c.kind.eventKind, ctx, seen⟩ := by
                simp [Agent.sighting?, hcalled, hcaptured]
              refine .shown hsighting (requests_of_sighting ho hsighting) ?_
              rw [happly]
              exact (onCallback_of_captured hnear hcaptured).2
  | none =>
      have hsighting : a.sighting? op = none := by simp [Agent.sighting?, hcalled]
      have hother : (∀ request, a.clears request op = false) →
          (a.apply op).requests = a.requests → Turn a op (a.apply op) := .same hsighting
      have hanswer : ∀ {caller : NativeThread} {α : Type} {x : Command α},
          (∀ request, a.clears request op = false) → x.Makes SameRequests →
            a.apply op = (answer caller x a).2 → Turn a op (a.apply op) := by
        intro caller α x hclears hx happly
        exact hother hclears (happly ▸ (sameRequests_answer hx caller a).requests)
      cases op with
      | setup | closeSession => exact hother (fun _ => rfl) rfl
      | command caller command => exact turn_serve caller command ho
      | attach caller canDeliver =>
          refine .left rfl ((requests_attach caller canDeliver ho).trans ?_)
          exact (List.filter_eq_self.mpr fun _ _ => rfl).symm
      | drain =>
          refine hother (fun _ => rfl) ?_
          rw [Agent.apply, Agent.drain]
          split <;> rfl
      | deliver caller c =>
          refine hother (fun _ => rfl) ?_
          cases hdelivers : a.vm.delivers c with
          | false => simp [Agent.apply, Agent.deliver, hdelivers]
          | true => simp [Agent.calledBack?, hdelivers] at hcalled
      | callback => cases hcalled
      | trackNew caller h =>
          exact hanswer (fun _ => rfl) (@Looks.trackNew Control.Any h).sameRequests rfl
      | trackObject caller h declared =>
          exact hanswer (fun _ => rfl) (@looks_trackObject Control.Any h declared).sameRequests rfl
      | trackClass caller h =>
          exact hanswer (fun _ => rfl) (@looks_trackClass Control.Any h).sameRequests rfl
      | release caller id => exact hanswer (fun _ => rfl) (sameRequests_release id) rfl
      | dispose caller id count => exact hanswer (fun _ => rfl) (sameRequests_dispose id count) rfl

end DebugAgent
