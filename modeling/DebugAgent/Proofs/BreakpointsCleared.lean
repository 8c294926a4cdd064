import DebugAgent.Proofs.Breakpoints
import DebugAgent.Proofs.Cleared
import DebugAgent.Proofs.Tables
import DebugAgent.Proofs.Wanted

/-!
# All breakpoints cleared

Clearing all breakpoint requests at once and clearing them one by one, in any order, come to the same.
The order would matter on the way: requests share positions, and all of them share one notification
with its count.  But to remove a breakpoint request changes nothing outside of what breakpoint
requests have, and once none is left, counters and machine have nothing more of theirs, since they
agree with the requests that are registered.  So whatever the way, it ends in the agent without its
breakpoints.
-/

namespace DebugAgent

open DebugAgent.Action Command Registration

variable {a b : Agent}

/-! ### What breakpoint requests have -/

/-- Breakpoint requests are notified of all hits together. -/
def breakpointKey : NotificationKey := (.breakpoint, none)

/-- The table without the breakpoint requests and what is counted for them. -/
def RequestTable.withoutBreakpoints (t : RequestTable) : RequestTable :=
  { t with
    requests := t.requests.filter fun request => request.kind ≠ .breakpoint
    breakpoints := .empty
    notifications := t.notifications.erase breakpointKey }

/-- The machine without breakpoints and the notification of them. -/
def Vm.withoutBreakpoints (vm : Vm) : Vm :=
  { vm with
    breakpoints := []
    notifications := vm.notifications.filter fun n => n ≠ (.breakpoint, none) }

/-- The agent without all that breakpoint requests have. -/
def Agent.withoutBreakpoints (a : Agent) : Agent :=
  { a with requests := a.requests.withoutBreakpoints, vm := a.vm.withoutBreakpoints }

theorem Vm.withoutBreakpoints_disableFor (vm : Vm) :
    (vm.disableFor .breakpoint none).withoutBreakpoints = vm.withoutBreakpoints := by
  simp [disableFor, withoutBreakpoints, putNotifications]

/-- The notification of breakpoints is for no thread in particular, so no reference is given up with
it. -/
theorem withoutBreakpoints_of_disables
    (hall : ∀ {held}, a.requests.notifications.get? breakpointKey = some held → held.thread = none)
    (hdisables : Disables a breakpointKey b) : b.withoutBreakpoints = a.withoutBreakpoints := by
  have herased : (a.requests.notifications.erase breakpointKey).erase breakpointKey =
      a.requests.notifications.erase breakpointKey :=
    Table.erase_of_none (Table.get?_erase_self _ _)
  cases hdisables with
  | unknown => rfl
  | @fewer held hheld hcount =>
      have hinserted : (a.requests.notifications.insert breakpointKey
          { held with count := held.count - 1 }).erase breakpointKey =
            a.requests.notifications.erase breakpointKey := Table.erase_insert_self _ _ _
      simp only [Agent.withoutBreakpoints, RequestTable.withoutBreakpoints, Agent.putNotifications,
        hinserted]
  | @last held target hheld hcount hdemand htarget =>
      have hthread := hall hheld
      have hnone : target = none := by
        rw [hthread, Vm.notifiedThread] at htarget
        exact (Except.ok.inj htarget).symm
      rw [hthread, hnone]
      simp only [Agent.withoutBreakpoints, RequestTable.withoutBreakpoints, Agent.putNotifications,
        Agent.setVm, freed, breakpointKey, Vm.withoutBreakpoints_disableFor]
      rw [← breakpointKey, herased]
  | @stuck held hheld hcount hrefused =>
      rw [hall hheld]
      simp only [Agent.withoutBreakpoints, RequestTable.withoutBreakpoints, Agent.putNotifications,
        Agent.setVm, freed, herased]

theorem withoutBreakpoints_dropRequest (ho : Orderly a) {request : Request}
    (hmem : request ∈ a.requests.requests) (hkind : request.kind = .breakpoint) :
    (a.dropRequest request.id).withoutBreakpoints = a.withoutBreakpoints := by
  have hothers : ((a.requests.requests.filter fun other => other.id ≠ request.id).filter
      fun other => other.kind ≠ .breakpoint) =
        a.requests.requests.filter fun other => other.kind ≠ .breakpoint := by
    rw [List.filter_filter]
    refine List.filter_congr fun other hother => ?_
    by_cases hid : other.id = request.id
    · obtain rfl := eq_of_id_eq ho hmem hother hid
      simp [hkind]
    · simp [hid]
  simp only [Agent.withoutBreakpoints, RequestTable.withoutBreakpoints, Agent.dropRequest,
    RequestTable.remove, hothers]

theorem eq_breakpoint_of_callbackKind {kind : EventKind}
    (hcallback : kind.callbackKind = .ok .breakpoint) : kind = .breakpoint := by
  cases kind <;> first | rfl | cases hcallback

/-- Requests, counters and machine agree with each other. -/
structure Agent.Agrees (a : Agent) : Prop where
  sound : Sound a
  met : ObligationsMet a
  needs : NeedsKept a
  shared : BreakpointsShared a

namespace Agent.Agrees

theorem reached (steps : List Vm.Setup) (config : Config) (ops : List Op) :
    (Agent.reached steps config ops).Agrees where
  sound := sound_reached steps config ops
  met := met_reached steps config ops
  needs := needsKept_reached steps config ops
  shared := shared_reached steps config ops

theorem change (h : a.Agrees) (hchange : Change a b) : b.Agrees where
  sound := h.sound.change hchange
  met := (h.met.change h.sound hchange).2.1
  needs := h.needs.change hchange
  shared := h.shared.change h.sound.toOrderly hchange

theorem attach (h : a.Agrees) (caller : NativeThread) : (a.setVm (a.vm.attach caller).2).Agrees :=
  h.change (.machine (Vm.frame_attach caller).keeps)

/-- What a breakpoint request is notified by, no other request is. -/
theorem notification_iff (h : a.Agrees) {request : Request} (hmem : request ∈ a.requests.requests) :
    request.registration.notification = breakpointKey ↔ request.kind = .breakpoint := by
  obtain ⟨hcallback, hcases⟩ := notification_of_needed (h.needs request hmem)
  constructor
  · intro hkey
    rw [hkey] at hcallback
    exact eq_breakpoint_of_callbackKind hcallback
  · intro hkind
    rw [hkind] at hcallback hcases
    rcases hcases with ⟨-, hall⟩ | ⟨id, hstep, -⟩
    · exact Prod.ext (Except.ok.inj hcallback).symm hall
    · cases hstep

section None

variable (h : a.Agrees) (hnone : ∀ request ∈ a.requests.requests, request.kind ≠ .breakpoint)

include h hnone

theorem get?_breakpointKey : a.requests.notifications.get? breakpointKey = none := by
  refine Option.eq_none_iff_forall_ne_some.mpr fun held hheld => ?_
  rcases (needed_of_forAll h.met h.needs).mp ⟨held, hheld⟩ with ⟨request, hmem, -, hkind⟩ | ⟨hdeath, -⟩
  · exact hnone request hmem (eq_breakpoint_of_callbackKind hkind)
  · cases hdeath

theorem requestsAt_eq_zero (position : MethodId × CodeIndex) : a.requestsAt position = 0 := by
  rw [requestsAt_eq h.needs, List.countP_eq_zero]
  intro request hmem hbreaks
  exact hnone request hmem (of_decide_eq_true hbreaks).1

theorem not_notified (thread : Option HeapId) : (.breakpoint, thread) ∉ a.vm.notifications := by
  intro henabled
  obtain ⟨id, held, hheld, -⟩ := h.met.enabled henabled
  cases id with
  | none => cases (h.get?_breakpointKey hnone).symm.trans hheld
  | some id => cases ((needed_of_forOne h.met h.needs).mp ⟨held, hheld⟩).1

/-- Without breakpoint requests there is nothing to be taken away. -/
theorem withoutBreakpoints_eq_self : a.withoutBreakpoints = a := by
  have hrequests : (a.requests.requests.filter fun request => request.kind ≠ .breakpoint) =
      a.requests.requests :=
    List.filter_eq_self.mpr fun request hmem => decide_eq_true (hnone request hmem)
  have hcounts : a.requests.breakpoints = .empty := Table.eq_empty fun position => by
    rw [h.shared.counted, if_pos (h.requestsAt_eq_zero hnone position)]
  have hheld : a.requests.notifications.erase breakpointKey = a.requests.notifications :=
    Table.erase_of_none (h.get?_breakpointKey hnone)
  have hset : a.vm.breakpoints = [] := List.eq_nil_iff_forall_not_mem.mpr fun position hmem =>
    absurd ((h.shared.set position).mp hmem) (by simp [h.requestsAt_eq_zero hnone position])
  have henabled : (a.vm.notifications.filter fun n => n ≠ (.breakpoint, none)) =
      a.vm.notifications := by
    refine List.filter_eq_self.mpr fun n hmem => decide_eq_true ?_
    rintro rfl
    exact h.not_notified hnone none hmem
  rw [Agent.withoutBreakpoints, RequestTable.withoutBreakpoints, Vm.withoutBreakpoints, hrequests,
    hheld, henabled, ← hcounts, ← hset]

end None

/-- A breakpoint request can be removed, and nothing changes but what breakpoint requests have. -/
theorem remove (h : a.Agrees) {request : Request} (hmem : request ∈ a.requests.requests)
    (hkind : request.kind = .breakpoint) :
    ∃ b, (Registration.remove request).perform a = (.ok (), b) ∧ b.Agrees ∧
      b.requests.requests = (a.requests.requests.filter fun other => other.id ≠ request.id) ∧
        b.withoutBreakpoints = a.withoutBreakpoints := by
  obtain ⟨released, b, hreleases, hdisables, hremove⟩ := remove_releases request h.sound.counts
  have hchange : Change a b := .remove hmem hreleases hdisables
  refine ⟨b, hremove, h.change hchange, ?_, ?_⟩
  · obtain ⟨set, counts, rfl⟩ := hreleases.eq
    obtain ⟨thread, enabled, held, rfl⟩ := hdisables.eq
    rfl
  · rw [(h.notification_iff hmem).mpr hkind] at hdisables
    have hreleased : released.requests.notifications = a.requests.notifications := by
      obtain ⟨set, counts, rfl⟩ := hreleases.eq
      rfl
    calc
      b.withoutBreakpoints = released.withoutBreakpoints :=
        withoutBreakpoints_of_disables (fun hheld => h.met.forAll (hreleased ▸ hheld)) hdisables
      _ = (a.dropRequest request.id).withoutBreakpoints := by
        obtain ⟨set, counts, rfl⟩ := hreleases.eq
        rfl
      _ = a.withoutBreakpoints := withoutBreakpoints_dropRequest h.sound.toOrderly hmem hkind

end Agent.Agrees

/-! ### Clearing one after another -/

/-- Native threads are attached, one after another. -/
def Agent.attachAll (a : Agent) (callers : List NativeThread) : Agent :=
  callers.foldl (fun a caller => a.setVm (a.vm.attach caller).2) a

/-- Attaching has nothing to do with breakpoints. -/
theorem withoutBreakpoints_attach (a : Agent) (caller : NativeThread) :
    (a.setVm (a.vm.attach caller).2).withoutBreakpoints =
      a.withoutBreakpoints.setVm (a.withoutBreakpoints.vm.attach caller).2 := by
  have hattached : a.withoutBreakpoints.vm.attached = a.vm.attached := rfl
  refine congrArg (a.withoutBreakpoints.setVm ·) ?_
  rw [Agent.setVm, Vm.attach, Vm.attach, hattached]
  cases a.vm.attached.get? caller <;> rfl

theorem withoutBreakpoints_attachAll (a : Agent) (callers : List NativeThread) :
    (a.attachAll callers).withoutBreakpoints = a.withoutBreakpoints.attachAll callers := by
  induction callers generalizing a with
  | nil => rfl
  | cons caller callers ih => exact (ih _).trans (congrArg (Agent.attachAll · callers)
      (withoutBreakpoints_attach a caller))

/-- The requests to clear single breakpoint requests that clients issue one after another. -/
def clearings (clears : List (NativeThread × RequestId)) : List Op :=
  clears.map fun clear => .command clear.1 (.clearEvent EventKind.breakpoint.code clear.2)

namespace Agent.Agrees

theorem serve_clearEvent (h : a.Agrees) (hattaches : a.vm.attachFails = false) {request : Request}
    (hmem : request ∈ a.requests.requests) (hkind : request.kind = .breakpoint)
    (caller : NativeThread) :
    ∃ b, Agent.serve caller (.clearEvent EventKind.breakpoint.code request.id) a = (.ok .done, b) ∧
      b.Agrees ∧
      b.requests.requests = (a.requests.requests.filter fun other => other.id ≠ request.id) ∧
        b.withoutBreakpoints = (a.setVm (a.vm.attach caller).2).withoutBreakpoints := by
  have hnear := h.attach caller
  obtain ⟨b, hremove, hagrees, hrequests, hsame⟩ := hnear.remove hmem hkind
  refine ⟨b, ?_, hagrees, hrequests, hsame⟩
  have hfound : (a.setVm (a.vm.attach caller).2).requests.find? request.id = some request :=
    find?_of_mem hnear.sound.sorted hmem
  have hclear : (done (EventRequest.clear EventKind.breakpoint.code request.id)).perform
      (a.setVm (a.vm.attach caller).2) = (.ok .done, b) := by
    simp [done, EventRequest.clear, Registration.clear, perform_bind, Action.ofExcept,
      EventKind.ofCode_code, hfound, hkind, hremove, Except.map]
  refine (answer_of_attaching hattaches caller _).trans ?_
  rw [Command.ofClient, hclear]
  rfl

/-- All breakpoint requests are cleared at once. -/
theorem removeAll (h : a.Agrees) {requests : List Request}
    (hregistered : ∀ request ∈ requests, request ∈ a.requests.requests ∧ request.kind = .breakpoint)
    (hdistinct : (requests.map Request.id).Nodup) :
    ∃ b, (requests.forM Registration.remove : Command Unit).perform a = (.ok (), b) ∧ b.Agrees ∧
      (∀ request ∈ b.requests.requests, request ∈ a.requests.requests ∧
        request.id ∉ requests.map Request.id) ∧
      b.withoutBreakpoints = a.withoutBreakpoints := by
  induction requests generalizing a with
  | nil => exact ⟨a, rfl, h, fun _ hmem => ⟨hmem, List.not_mem_nil⟩, rfl⟩
  | cons request requests ih =>
      obtain ⟨⟨hmem, hkind⟩, hothers⟩ := List.forall_mem_cons.mp hregistered
      obtain ⟨hnew, hdistinct⟩ := List.nodup_cons.mp hdistinct
      obtain ⟨b, hremove, hagrees, hrequests, hsame⟩ := h.remove hmem hkind
      have hlater : ∀ other ∈ requests, other ∈ b.requests.requests ∧ other.kind = .breakpoint := by
        intro other hother
        refine ⟨?_, (hothers other hother).2⟩
        rw [hrequests, List.mem_filter]
        refine ⟨(hothers other hother).1, decide_eq_true fun hid => hnew ?_⟩
        exact hid ▸ List.mem_map_of_mem hother
      obtain ⟨c, hperform, hagrees', hleft, hsame'⟩ := ih hagrees hlater hdistinct
      refine ⟨c, ?_, hagrees', fun other hother => ?_, hsame'.trans hsame⟩
      · simpa [perform_bind, hremove] using hperform
      · obtain ⟨hb, hgone⟩ := hleft other hother
        rw [hrequests, List.mem_filter] at hb
        exact ⟨hb.1, List.not_mem_cons_of_ne_of_not_mem (of_decide_eq_true hb.2) hgone⟩

theorem nodup_ids (h : a.Agrees) (kind : EventKind) :
    ((a.requests.ofKind kind).map Request.id).Nodup := by
  have hsorted := h.sound.sorted.sublist (List.filter_sublist (p := fun r => r.kind = kind))
  exact List.pairwise_map.mpr (hsorted.imp fun hlt => Int.ne_of_lt hlt)

theorem serve_clearAllBreakpoints (h : a.Agrees) (hattaches : a.vm.attachFails = false)
    (caller : NativeThread) :
    Agent.serve caller .clearAllBreakpoints a =
      (.ok .done, (a.attachAll [caller]).withoutBreakpoints) := by
  let near := a.setVm (a.vm.attach caller).2
  have hnear : near.Agrees := h.attach caller
  have hregistered : ∀ request ∈ near.requests.ofKind .breakpoint,
      request ∈ near.requests.requests ∧ request.kind = .breakpoint := by
    intro request hmem
    obtain ⟨hmem, hkind⟩ := List.mem_filter.mp hmem
    exact ⟨hmem, of_decide_eq_true hkind⟩
  obtain ⟨b, hperform, hagrees, hleft, hsame⟩ := hnear.removeAll hregistered (hnear.nodup_ids _)
  have hnone : ∀ request ∈ b.requests.requests, request.kind ≠ .breakpoint := by
    intro request hmem hkind
    obtain ⟨hmem, hgone⟩ := hleft request hmem
    exact hgone (List.mem_map_of_mem (List.mem_filter.mpr ⟨hmem, decide_eq_true hkind⟩))
  have hclears : Registration.clearBreakpoints.perform near = (.ok (), near.withoutBreakpoints) := by
    rw [← hsame, hagrees.withoutBreakpoints_eq_self hnone]
    simpa [Registration.clearBreakpoints, perform_bind] using hperform
  change answer caller (done Registration.clearBreakpoints) a = _
  rw [answer_of_attaching hattaches, done, perform_bind_of_ok hclears]
  rfl

/-- Breakpoint requests are cleared one by one.  Each clearing succeeds, and the last one leaves
nothing of them. -/
theorem run_clearings (h : a.Agrees) (hattaches : a.vm.attachFails = false)
    {clears : List (NativeThread × RequestId)}
    (hall : ∀ id, id ∈ clears.map Prod.snd ↔
      ∃ request ∈ a.requests.requests, request.kind = .breakpoint ∧ request.id = id)
    (hdistinct : (clears.map Prod.snd).Nodup) :
    (∀ before clear after, clears = before ++ clear :: after →
      (Agent.serve clear.1 (.clearEvent EventKind.breakpoint.code clear.2)
        (a.run (clearings before))).1 = .ok .done) ∧
      a.run (clearings clears) = (a.attachAll (clears.map Prod.fst)).withoutBreakpoints := by
  induction clears generalizing a with
  | nil =>
      refine ⟨fun before clear after heq => by simp at heq, ?_⟩
      refine (h.withoutBreakpoints_eq_self fun request hmem hkind => ?_).symm
      cases (hall request.id).mpr ⟨request, hmem, hkind, rfl⟩
  | cons clear clears ih =>
      obtain ⟨caller, id⟩ := clear
      obtain ⟨hnew, hrest⟩ := List.nodup_cons.mp hdistinct
      obtain ⟨request, hmem, hkind, rfl⟩ := (hall id).mp List.mem_cons_self
      obtain ⟨b, hserve, hagrees, hrequests, hsame⟩ :=
        h.serve_clearEvent hattaches hmem hkind caller
      have hattaches' : b.vm.attachFails = false := by
        have hfails := congrArg (fun a : Agent => a.vm.attachFails) hsame
        exact hfails.trans ((attachFails_attach a.vm caller).trans hattaches)
      have hlater : ∀ id, id ∈ clears.map Prod.snd ↔
          ∃ other ∈ b.requests.requests, other.kind = .breakpoint ∧ other.id = id := by
        intro id
        have hid : id ∈ clears.map Prod.snd → id ≠ request.id := fun hlisted heq => hnew (heq ▸ hlisted)
        have hfirst := hall id
        rw [hrequests]
        constructor
        · intro hlisted
          obtain ⟨other, hother, hbreak, rfl⟩ := hfirst.mp (List.mem_cons_of_mem _ hlisted)
          exact ⟨other, List.mem_filter.mpr ⟨hother, decide_eq_true (hid hlisted)⟩, hbreak, rfl⟩
        · rintro ⟨other, hother, hbreak, rfl⟩
          obtain ⟨hother, hne⟩ := List.mem_filter.mp hother
          exact (List.mem_cons.mp (hfirst.mpr ⟨other, hother, hbreak, rfl⟩)).resolve_left
            (of_decide_eq_true hne)
      obtain ⟨hreplies, hrun⟩ := ih hagrees hattaches' hlater hrest
      have happly : a.apply (.command caller (.clearEvent EventKind.breakpoint.code request.id)) = b :=
        congrArg Prod.snd hserve
      refine ⟨fun before clear after heq => ?_, ?_⟩
      · cases before with
        | nil =>
            cases heq
            exact congrArg Prod.fst hserve
        | cons first before =>
            cases heq
            have hstart : a.run (clearings ((caller, request.id) :: before)) =
                b.run (clearings before) := by
              rw [clearings, List.map_cons, Agent.run_cons, happly]
              rfl
            rw [hstart]
            exact hreplies before clear after rfl
      · rw [clearings, List.map_cons, Agent.run_cons, happly]
        refine hrun.trans ?_
        rw [withoutBreakpoints_attachAll, hsame, ← withoutBreakpoints_attachAll]
        rfl

end Agent.Agrees

/-! ### The outcome -/

theorem attachAll_leaves (a : Agent) (callers : List NativeThread) :
    (a.attachAll callers).requests = a.requests ∧ (a.attachAll callers).tracker = a.tracker ∧
      (a.attachAll callers).vm.refs = a.vm.refs ∧
        (a.attachAll callers).vm.notifications = a.vm.notifications := by
  induction callers generalizing a with
  | nil => exact ⟨rfl, rfl, rfl, rfl⟩
  | cons caller callers ih =>
      obtain ⟨hrequests, htracker, hrefs, henabled⟩ := ih (a.setVm (a.vm.attach caller).2)
      have hframe : a.vm.Frame (a.vm.attach caller).2 := Vm.frame_attach caller
      exact ⟨hrequests, htracker, hrefs.trans hframe.refs, henabled.trans hframe.notifications⟩

/-- Whether breakpoint requests are cleared at once or one by one, in any order and by any native
threads, each command succeeds, and the agent is left without all that breakpoint requests have: in
the request table, among the counts, and in the machine.  No breakpoint request is registered then, no
breakpoint is set and no hit notified of, and requests of other kinds are what they were, as are their
notifications and all references.  The one thing that differs is which native threads have been
attached on the way. -/
theorem breakpoints_cleared_in_any_order (steps : List Vm.Setup) (config : Config) (ops : List Op)
    (hattaches : (Agent.reached steps config ops).vm.attachFails = false) (caller : NativeThread)
    (clears : List (NativeThread × RequestId))
    (hall : (clears.map Prod.snd).Perm
      (((Agent.reached steps config ops).requests.ofKind .breakpoint).map Request.id)) :
    let a := Agent.reached steps config ops
    let whole := Agent.serve caller .clearAllBreakpoints a
    let each := a.run (clearings clears)
    whole.1 = .ok .done ∧
    (∀ before clear after, clears = before ++ clear :: after →
      (Agent.serve clear.1 (.clearEvent EventKind.breakpoint.code clear.2)
        (a.run (clearings before))).1 = .ok .done) ∧
    whole.2 = (a.attachAll [caller]).withoutBreakpoints ∧
    each = (a.attachAll (clears.map Prod.fst)).withoutBreakpoints ∧
    (each.requests = whole.2.requests ∧ each.tracker = whole.2.tracker ∧
      each.vm.breakpoints = whole.2.vm.breakpoints ∧
      each.vm.notifications = whole.2.vm.notifications ∧ each.vm.refs = whole.2.vm.refs) ∧
    whole.2.requests.requests =
      (a.requests.requests.filter fun request => request.kind ≠ .breakpoint) ∧
    (∀ method index, whole.2.vm.isBreakpoint method index = false) ∧
    (∀ thread, whole.2.vm.isEnabled .breakpoint thread = false) ∧
    (∀ request ∈ a.requests.requests, request.kind ≠ .breakpoint →
      whole.2.requests.notifications.get? request.registration.notification =
        a.requests.notifications.get? request.registration.notification) ∧
    (∀ kind thread, kind ≠ .breakpoint →
      whole.2.vm.isEnabled kind thread = a.vm.isEnabled kind thread) ∧
    whole.2.tracker = a.tracker ∧ whole.2.vm.refs = a.vm.refs := by
  intro a whole each
  have hagrees : a.Agrees := .reached steps config ops
  have hwhole := hagrees.serve_clearAllBreakpoints hattaches caller
  have hlisted : ∀ id, id ∈ clears.map Prod.snd ↔
      ∃ request ∈ a.requests.requests, request.kind = .breakpoint ∧ request.id = id := by
    intro id
    rw [hall.mem_iff]
    simp [RequestTable.ofKind, a, and_assoc]
  obtain ⟨hreplies, heach⟩ := hagrees.run_clearings hattaches hlisted
    (hall.nodup_iff.mpr (hagrees.nodup_ids .breakpoint))
  have hcleared : whole.2 = (a.attachAll [caller]).withoutBreakpoints := congrArg Prod.snd hwhole
  obtain ⟨hrequests, htracker, hrefs, henabled⟩ := attachAll_leaves a [caller]
  obtain ⟨hrequests', htracker', hrefs', henabled'⟩ := attachAll_leaves a (clears.map Prod.fst)
  refine ⟨congrArg Prod.fst hwhole, hreplies, hcleared, heach, ?_, ?_, ?_, ?_, ?_, ?_, ?_, ?_⟩
  · rw [hcleared, show each = _ from heach]
    refine ⟨congrArg RequestTable.withoutBreakpoints (hrequests'.trans hrequests.symm),
      htracker'.trans htracker.symm, rfl, ?_, hrefs'.trans hrefs.symm⟩
    exact congrArg (List.filter _) (henabled'.trans henabled.symm)
  · rw [hcleared]
    exact congrArg (List.filter _) (congrArg RequestTable.requests hrequests)
  · intro method index
    rw [hcleared]
    rfl
  · have hafter : whole.2.Agrees := by
      have hlater := Agent.Agrees.reached steps config (ops ++ [.command caller .clearAllBreakpoints])
      rwa [Agent.reached, Agent.run_append] at hlater
    have hnone : ∀ request ∈ whole.2.requests.requests, request.kind ≠ .breakpoint := by
      rw [hcleared]
      exact fun request hmem => of_decide_eq_true (List.mem_filter.mp hmem).2
    intro thread
    rw [← Bool.not_eq_true, isEnabled_iff]
    exact hafter.not_notified hnone thread
  · intro request hmem hkind
    rw [hcleared]
    refine (Table.get?_erase_of_ne fun hkey => hkind ((hagrees.notification_iff hmem).mp hkey)).trans ?_
    rw [hrequests]
  · intro kind thread hkind
    rw [Bool.eq_iff_iff, isEnabled_iff, isEnabled_iff, hcleared]
    change _ ∈ (a.attachAll [caller]).vm.notifications.filter _ ↔ _
    rw [henabled, List.mem_filter]
    exact and_iff_left (decide_eq_true fun heq => hkind (congrArg Prod.fst heq))
  · rw [hcleared]
    exact htracker
  · rw [hcleared]
    exact hrefs

/-- A class with one method of nine positions. -/
def classWithMain : List Vm.Setup :=
  [.defineClass "LMain;",
    .addMethod 9 { name := "main", signature := "()V", start := 0, finish := 8 }]

/-- Two breakpoint requests at one position and one at another, and a request that tells of threads
that start. -/
def breakpointsShared : List Op :=
  [.attach (.client 0) true, .command (.client 0) (.classesBySignature "LMain;"),
    .command (.client 0) (.setBreakpoint ⟨.classType, 1, 0x1000, 4⟩ .none),
    .command (.client 0) (.setEvent EventKind.threadStart.code .none []),
    .command (.client 0) (.setBreakpoint ⟨.classType, 1, 0x1000, 0⟩ .none),
    .command (.client 0) (.setBreakpoint ⟨.classType, 1, 0x1000, 4⟩ .all)]

/-- The breakpoints of this run are cleared by two native threads, not in the order in which they were
set, and only the request that tells of threads is left. -/
theorem shared_breakpoints_cleared :
    let a := Agent.reached classWithMain {} breakpointsShared
    let clears : List (NativeThread × RequestId) := [(.client 0, 3), (.client 1, 4), (.client 0, 1)]
    let whole := Agent.serve (.client 0) .clearAllBreakpoints a
    let each := a.run (clearings clears)
    a.vm.attachFails = false ∧
    (clears.map Prod.snd).Perm ((a.requests.ofKind .breakpoint).map Request.id) ∧
    a.vm.breakpoints = [(0x1000, 4), (0x1000, 0)] ∧
    whole.1 = .ok .done ∧ each.requests = whole.2.requests ∧
    each.vm.notifications = whole.2.vm.notifications ∧
    each.requests.requests.map Request.kind = [.threadStart] ∧ each.vm.breakpoints = [] := by
  have hattaches : (Agent.reached classWithMain {} breakpointsShared).vm.attachFails = false := by
    decide +kernel
  have hids : ((Agent.reached classWithMain {} breakpointsShared).requests.ofKind .breakpoint).map
      Request.id = [1, 3, 4] := by decide +kernel
  have hkinds : ((Agent.reached classWithMain {} breakpointsShared).requests.requests.filter
      fun request => request.kind ≠ .breakpoint).map Request.kind = [.threadStart] := by
    decide +kernel
  have hset : (Agent.reached classWithMain {} breakpointsShared).vm.breakpoints =
      [(0x1000, 4), (0x1000, 0)] := by decide +kernel
  have hperm : [3, 4, 1].Perm (((Agent.reached classWithMain {}
      breakpointsShared).requests.ofKind .breakpoint).map Request.id) := by
    rw [hids]
    decide
  obtain ⟨hdone, -, hwhole, -, ⟨hrequests, -, hbreakpoints, hnotifications, -⟩, hleft, -⟩ :=
    breakpoints_cleared_in_any_order classWithMain {} breakpointsShared hattaches (.client 0)
      [(.client 0, 3), (.client 1, 4), (.client 0, 1)] hperm
  refine ⟨hattaches, hperm, hset, hdone, hrequests, hnotifications, ?_, ?_⟩
  · exact (congrArg _ (congrArg RequestTable.requests hrequests)).trans
      ((congrArg _ hleft).trans hkinds)
  · exact hbreakpoints.trans (congrArg (fun left : Agent => left.vm.breakpoints) hwhole)

end DebugAgent
