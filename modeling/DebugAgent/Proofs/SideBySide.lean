import DebugAgent.Proofs.Footing
import DebugAgent.Proofs.Globals
import DebugAgent.Proofs.Stepping
import Mathlib.Data.List.Infix

/-!
# Steps and identifiers given back

A client that gives back the identifier of a thread gets the thread under a new one in every later
event, and a step request for the thread keeps the old one as the key of its notification.  Neither
shows.  Two runs in which the debugged world does the same to the thread are the same to a request
for its steps, whatever identifiers have been given back in one of them: it fires on the same
callbacks, at the same places, and expires with the same callback.

This needs the request to be the only one for steps of its thread.  Requests that name one thread by
two identifiers are not told apart by the machine, and the first one that goes takes the
notification with it.
-/

namespace DebugAgent

open DebugAgent.Action Command Registration Tracking

variable {a b : Agent} {request : Request} {thread : HeapId} {op op' : Op} {id : RequestId}

/-! ### One operation -/

/-- The client clears the step request with this identifier. -/
def Op.clearsStep (id : RequestId) : Op → Bool
  | .command _ (.clearEvent kindCode request) =>
      kindCode = EventKind.singleStep.code && request = id
  | _ => false

/-- The request is registered for the steps of a thread that is enabled for them, and its other
filters name no object. -/
structure Agent.StepsIn (a : Agent) (request : Request) (thread : HeapId) : Prop where
  sound : Sound a
  met : ObligationsMet a
  needs : NeedsKept a
  mem : request ∈ a.requests.requests
  kind : request.kind = .singleStep
  id_ne : request.id ≠ 0
  steps : ∃ state, request.StepsBy state
  unnamed : ∀ filter ∈ request.filters, filter.named? = none
  inThread : a.steppedThread? request = some thread
  isThread : (a.vm.threadAt? thread).isSome
  enabled : a.vm.isEnabled .singleStep (some thread)

namespace Agent.StepsIn

theorem accepts_step (h : a.StepsIn request thread) {state : StepState}
    (hsteps : request.StepsBy state) {sighting : Sighting}
    (hsighting : a.sighting? op = some sighting) :
    sighting.accepts request ↔ sighting.kind = .singleStep ∧ sighting.ctx.thread = some thread ∧
      (∃ point, sighting.ctx.point? = some point ∧ state.reaches point) ∧
        sighting.acceptsElse request := by
  have ho := h.sound.toOrderly
  refine accepts_step_iff h.kind hsteps ?_
  rw [steppedThread?_of_evolves h.sound h.met (evolves_of_sighting ho hsighting)
    (requests_of_sighting ho hsighting)]
  exact h.inThread

/-- What is accepted of a footing in one state is accepted in another. -/
theorem accepted_of_footing (ha : a.StepsIn request thread) (hb : b.StepsIn request thread)
    (hsame : a.footing? thread op = b.footing? thread op') {ctx : Context}
    (hctx : a.accepted? request op = some ctx) :
    ∃ other, b.accepted? request op' = some other ∧ other.footing = ctx.footing := by
  obtain ⟨state, hsteps⟩ := ha.steps
  obtain ⟨s, hs, haccepts, rfl⟩ := accepted?_eq_some.mp hctx
  obtain ⟨hkind, hin, ⟨point, hpoint, hreaches⟩, helse⟩ := (ha.accepts_step hsteps hs).mp haccepts
  have hfooting := (footing?_eq_some_iff ha.sound.toOrderly ha.isThread ha.enabled).mpr
    ⟨s, hs, hkind, hin, rfl⟩
  rw [hsame] at hfooting
  obtain ⟨t, ht, hkind', hin', hfooting'⟩ :=
    (footing?_eq_some_iff hb.sound.toOrderly hb.isThread hb.enabled).mp hfooting
  have haccepts' := (hb.accepts_step hsteps ht).mpr ⟨hkind', hin',
    ⟨point, (Context.point?_of_footing hfooting').trans hpoint, hreaches⟩,
    (Sighting.acceptsElse_of_footing hfooting' ha.unnamed).mpr helse⟩
  exact ⟨t.ctx, accepted?_eq_some.mpr ⟨t, ht, haccepts', rfl⟩, hfooting'⟩

theorem accepted?_footing (ha : a.StepsIn request thread) (hb : b.StepsIn request thread)
    (hsame : a.footing? thread op = b.footing? thread op') :
    (a.accepted? request op).map Context.footing =
      (b.accepted? request op').map Context.footing := by
  cases ha' : a.accepted? request op with
  | some ctx =>
      obtain ⟨other, hother, hfooting⟩ := ha.accepted_of_footing hb hsame ha'
      rw [hother, Option.map_some, Option.map_some, hfooting]
  | none =>
      cases hb' : b.accepted? request op' with
      | none => rfl
      | some ctx =>
          obtain ⟨other, hother, -⟩ := hb.accepted_of_footing ha hsame.symm hb'
          cases ha'.symm.trans hother

/-- Where the request stops in an operation is told by the footing. -/
theorem stops_eq (h : a.StepsIn request thread) (op : Op) :
    (a.eventsUnder request.id op).map Event.stop =
      ((a.accepted? request op).map Context.footing).toList.map fun footing =>
        (request.id, footing.position.map fun position => (position.1, position.2.toNat)) := by
  rw [eventsUnder_eq h.sound.toOrderly h.mem, Agent.accepted?]
  cases hsighting : a.sighting? op with
  | none => rfl
  | some sighting =>
      have hunrequested : (Firing.unrequested sighting.kind).filter
          (fun event => event.requestId = request.id) = [] := by
        refine List.filter_eq_nil_iff.mpr fun event hevent => ?_
        rw [requestId_of_unrequested hevent, decide_eq_true_eq]
        exact h.id_ne.symm
      rw [Option.elim_some, hunrequested, List.nil_append]
      dsimp only
      cases haccepts : sighting.accepts request with
      | false => rfl
      | true =>
          have hkind : sighting.kind = .singleStep :=
            (accepts_iff.mp haccepts).1.symm.trans h.kind
          have hlocation := location_of_sighting hsighting hkind
          simp [Event.stop, hlocation]

/-- A step request is cleared by its kind and identifier only. -/
theorem clears_eq (h : a.StepsIn request thread) (op : Op) :
    a.clears request op = (!a.vm.attachFails && op.clearsStep request.id) := by
  have hregistered : a.requests.contains request.id = true := by
    rw [RequestTable.contains, (find?_eq_some_iff h.sound.toOrderly).mpr ⟨h.mem, rfl⟩]
    rfl
  cases op with
  | command caller command =>
      rw [Agent.clears, hregistered, Bool.and_true]
      cases command with
      | clearEvent => rw [ClientCommand.clears, Op.clearsStep, h.kind]
      | clearBreakpoint | clearAllBreakpoints => simp [ClientCommand.clears, Op.clearsStep, h.kind]
      | _ => rfl
  | _ => simp [Agent.clears, Op.clearsStep]

/-- The client clears the request: that is no callback, and the request is gone. -/
theorem gone_of_clears (h : a.StepsIn request thread) (hclears : a.clears request op = true) :
    a.eventsUnder request.id op = [] ∧ (a.apply op).requests.find? request.id = none := by
  obtain ⟨state, hsteps⟩ := h.steps
  have hneeded := h.needs request h.mem
  rw [h.kind] at hneeded
  have hregistration := registration_of_step hneeded hsteps.threads
  rw [h.clears_eq, Bool.and_eq_true, Bool.not_eq_true'] at hclears
  obtain ⟨hfails, hclears⟩ := hclears
  cases op with
  | command caller command =>
      cases command with
      | clearEvent kindCode id =>
          rw [Op.clearsStep, Bool.and_eq_true, decide_eq_true_eq, decide_eq_true_eq] at hclears
          obtain ⟨rfl, rfl⟩ := hclears
          have hcleared := (clear_step h.sound h.met hfails h.mem h.kind (by rw [hregistration])
            caller).2
          refine ⟨rfl, find?_eq_none_iff.mpr fun other hother => ?_⟩
          have hrest : other ∈ a.requests.requests.filter fun r => r.id ≠ request.id :=
            hcleared.requests ▸ hother
          exact of_decide_eq_true (List.mem_filter.mp hrest).2
      | _ => cases hclears
  | _ => cases hclears

/-- Two states that see the same footing of a step agree about what becomes of the request. -/
theorem alike (ha : a.StepsIn request thread) (hb : b.StepsIn request thread)
    (hsame : a.footing? thread op = b.footing? thread op')
    (hclears : a.clears request op = b.clears request op') :
    (a.eventsUnder request.id op).map Event.stop = (b.eventsUnder request.id op').map Event.stop ∧
      (a.apply op).requests.find? request.id = (b.apply op').requests.find? request.id := by
  cases hcleared : a.clears request op with
  | true =>
      obtain ⟨hnone, hgone⟩ := ha.gone_of_clears hcleared
      obtain ⟨hnone', hgone'⟩ := hb.gone_of_clears (hclears.symm.trans hcleared)
      rw [hnone, hnone', hgone, hgone']
      exact ⟨rfl, rfl⟩
  | false =>
      have haccepted := ha.accepted?_footing hb hsame
      rw [ha.stops_eq, hb.stops_eq, haccepted, find?_apply ha.sound.toOrderly ha.mem hcleared,
        find?_apply hb.sound.toOrderly hb.mem (hclears.symm.trans hcleared)]
      refine ⟨rfl, ?_⟩
      cases ha' : a.accepted? request op with
      | none =>
          rw [ha', Option.map_none] at haccepted
          rw [Option.map_eq_none_iff.mp haccepted.symm]
      | some ctx =>
          rw [ha', Option.map_some] at haccepted
          obtain ⟨other, hother, hfooting⟩ := Option.map_eq_some_iff.mp haccepted.symm
          rw [hother]
          simp only [Request.advance_of_footing hfooting]

end Agent.StepsIn

/-! ### The only request for steps of a thread -/

/-- As long as the request is registered, no other one is for steps of the thread. -/
def Agent.StepsAlone (a : Agent) (id : RequestId) (thread : HeapId) : Prop :=
  a.requests.contains id → ∀ request ∈ a.requests.requests, request.kind = .singleStep →
    a.steppedThread? request = some thread → request.id = id

instance (a : Agent) (id : RequestId) (thread : HeapId) : Decidable (a.StepsAlone id thread) :=
  inferInstanceAs (Decidable (_ → ∀ request ∈ a.requests.requests, _))

section Run

variable {steps : List Vm.Setup} {config : Config} {ops : List Op}

theorem isRegistered_iff {t : RequestTable} :
    t.contains id ↔ ∃ request, t.find? id = some request := by
  rw [RequestTable.contains, Option.isSome_iff_exists]

/-- What is held for one thread is held for a request for its steps. -/
theorem stepping_of_held {kind : CallbackKind} {name : ObjectId} {held : Notification}
    (hheld : (Agent.reached steps config ops).requests.notifications.get? (kind, some name) =
      some held) (hthread : (Agent.reached steps config ops).threadOf held = some thread) :
    kind = .singleStep ∧ ∃ request ∈ (Agent.reached steps config ops).requests.requests,
      ∃ state, request.kind = .singleStep ∧ request.StepsBy state ∧ state.thread = name ∧
        Designated steps config ops name thread := by
  obtain ⟨rfl, request, hmem, hkind, hname⟩ := (needed_of_forOne (met_reached steps config ops)
    (needsKept_reached steps config ops)).mp ⟨held, hheld⟩
  rw [filterMap_stepThreadOf?] at hname
  obtain ⟨state, hsteps, rfl⟩ := List.map_eq_singleton_iff.mp hname
  exact ⟨rfl, request, hmem, state, hkind, hsteps, rfl, designated_of_held hheld hthread⟩

/-- A thread that has one request for its steps has its notifications under one identifier. -/
theorem keysApart_of_alone (hregistered : (Agent.reached steps config ops).requests.contains id)
    (halone : (Agent.reached steps config ops).StepsAlone id thread) :
    KeysApart (Agent.reached steps config ops) thread := by
  intro kind name name' held held' hheld hheld' hthread hthread'
  obtain ⟨-, request, hmem, state, hkind, hsteps, rfl, hdesignated⟩ :=
    stepping_of_held hheld hthread
  obtain ⟨-, other, hother, state', hkind', hsteps', rfl, hdesignated'⟩ :=
    stepping_of_held hheld' hthread'
  have hid := halone hregistered request hmem hkind
    (steppedThread?_of_designated hmem hkind hsteps hdesignated)
  have hid' := halone hregistered other hother hkind'
    (steppedThread?_of_designated hother hkind' hsteps' hdesignated')
  have hsame := eq_of_id_eq (orderly_reached steps config ops) hmem hother (hid'.trans hid.symm)
  rw [hsame] at hsteps'
  rw [List.singleton_inj.mp (hsteps.symm.trans hsteps')]

/-- Before the request was set that is the only one for steps of the thread now, nothing was held
for the thread. -/
theorem nothing_held_before_set {caller : NativeThread} {policy : SuspendPolicy}
    {modifiers : List EventModifier}
    (hset : (Agent.serve caller (.setEvent EventKind.singleStep.code policy modifiers)
      (Agent.reached steps config ops)).1 = .ok (.request id))
    (halone : ((Agent.reached steps config ops).apply
      (.command caller (.setEvent EventKind.singleStep.code policy modifiers))).StepsAlone id thread)
    {kind : CallbackKind} {name : ObjectId} {held : Notification}
    (hheld : (Agent.reached steps config ops).requests.notifications.get? (kind, some name) =
      some held) : (Agent.reached steps config ops).threadOf held ≠ some thread := by
  intro htarget
  let before := Agent.reached steps config ops
  let setting : Op := .command caller (.setEvent EventKind.singleStep.code policy modifiers)
  have hs : Sound before := sound_reached steps config ops
  have hreached : Agent.reached steps config (ops ++ [setting]) = before.apply setting :=
    Agent.run_append _ ops [setting]
  have ho : Orderly (before.apply setting) := hreached ▸ orderly_reached steps config _
  obtain ⟨request, hmem, hid, hnext, -⟩ := registered_of_set hs.toOrderly hset
  have hfound : (before.apply setting).requests.find? id = some request :=
    (find?_eq_some_iff ho).mpr ⟨hmem, hid⟩
  obtain ⟨-, other, hother, state, hkind, hsteps, rfl, hdesignated⟩ :=
    stepping_of_held hheld htarget
  have hspared : before.clears other setting = false := by
    simp [Agent.clears, setting, ClientCommand.clears]
  have hkept := ((find?_eq_some_iff ho).mp (find?_apply hs.toOrderly hother hspared)).1
  rw [← hreached] at hkept hfound
  have hin := steppedThread?_of_designated hkept hkind hsteps
    (hdesignated.mono (List.prefix_append _ _))
  rw [hreached] at hkept hfound hin
  have hsame := halone (isRegistered_iff.mpr ⟨request, hfound⟩) other hkept hkind hin
  -- but an identifier that is in use cannot be given again
  have hfresh := hs.fresh other hother
  rw [hsame, hnext] at hfresh
  exact Int.lt_irrefl _ hfresh

/-- What is true of a step request from its setting on, registered or not: it is for the thread, its
other filters name no object, and notification of the thread's steps is enabled for it. -/
structure Follows (steps : List Vm.Setup) (config : Config) (ops : List Op) (id : RequestId)
    (thread : HeapId) : Prop where
  id_ne : id ≠ 0
  old : id < (Agent.reached steps config ops).requests.nextId
  under : ∃ state, (Agent.reached steps config ops).StepsUnder id state ∧
    Designated steps config ops state.thread thread
  unnamed : ∀ request, (Agent.reached steps config ops).requests.find? id = some request →
    ∀ filter ∈ request.filters, filter.named? = none
  enabled : (Agent.reached steps config ops).requests.contains id →
    StepsEnabled (Agent.reached steps config ops) thread

namespace Follows

theorem stepsIn (h : Follows steps config ops id thread)
    (hfound : (Agent.reached steps config ops).requests.find? id = some request) :
    (Agent.reached steps config ops).StepsIn request thread := by
  have hs := sound_reached steps config ops
  have hmet := met_reached steps config ops
  obtain ⟨hmem, rfl⟩ := (find?_eq_some_iff hs.toOrderly).mp hfound
  obtain ⟨state, hunder, hdesignated⟩ := h.under
  obtain ⟨hkind, hsteps⟩ := hunder request hfound
  have hthread := steppedThread?_of_designated hmem hkind hsteps hdesignated
  have hneeded := needsKept_reached steps config ops request hmem
  rw [hkind] at hneeded
  have hregistration := registration_of_step hneeded hsteps.threads
  have hheld := hthread
  rw [steppedThread?_eq, hregistration] at hheld
  obtain ⟨held, hheld, htarget⟩ := Option.bind_eq_some_iff.mp hheld
  refine ⟨hs, hmet, needsKept_reached steps config ops, hmem, hkind, h.id_ne, ⟨state, hsteps⟩,
    h.unnamed request hfound, hthread, ?_, ?_⟩
  · obtain ⟨-, -, -, hisThread⟩ := hmet.global_of_threadOf hheld htarget
    exact hisThread
  · exact isEnabled_iff.mpr (h.enabled (isRegistered_iff.mpr ⟨request, hfound⟩) hheld htarget)

/-- Whatever happens, this stays so as long as the request is the only one for the thread. -/
theorem apply (h : Follows steps config ops id thread)
    (halone : (Agent.reached steps config ops).StepsAlone id thread) (op : Op) :
    Follows steps config (ops ++ [op]) id thread := by
  have hs := sound_reached steps config ops
  have hmet := met_reached steps config ops
  have hreached : Agent.reached steps config (ops ++ [op]) =
      (Agent.reached steps config ops).apply op := Agent.run_append _ ops [op]
  have hbefore : ∀ later,
      ((Agent.reached steps config ops).apply op).requests.find? id = some later →
        ∃ request, (Agent.reached steps config ops).requests.find? id = some request ∧ later =
          ((Agent.reached steps config ops).accepted? request op).elim request request.advance :=
    fun later => find?_before_apply hs.toOrderly h.old
  refine ⟨h.id_ne, ?_, ?_, ?_, ?_⟩
  · rw [hreached]
    exact Int.lt_of_lt_of_le h.old (nextId_le_apply hs.toOrderly op)
  · obtain ⟨state, hunder, hdesignated⟩ := h.under
    have hlater := stepsUnder_apply hunder hdesignated h.id_ne h.old op
    rw [hreached]
    exact ⟨_, hlater, hdesignated.mono (List.prefix_append _ _)⟩
  · rw [hreached]
    intro later hlater filter hmem
    obtain ⟨request, hfound, rfl⟩ := hbefore later hlater
    cases haccepted : (Agent.reached steps config ops).accepted? request op with
    | none =>
        rw [haccepted] at hmem
        exact h.unnamed request hfound filter hmem
    | some ctx =>
        rw [haccepted] at hmem
        obtain ⟨first, hfirst, rfl⟩ := List.mem_map.mp hmem
        rw [Filter.named?_advance]
        exact h.unnamed request hfound first hfirst
  · rw [hreached]
    intro hlater
    obtain ⟨later, hlater⟩ := isRegistered_iff.mp hlater
    obtain ⟨request, hfound, -⟩ := hbefore later hlater
    have hregistered := isRegistered_iff.mpr ⟨request, hfound⟩
    obtain ⟨-, -, hkept⟩ := leads_met hs hmet (leads_apply op hs.toOrderly)
    exact hkept thread (h.enabled hregistered) (keysApart_of_alone hregistered halone)

theorem run (h : Follows steps config ops id thread) (later : List Op)
    (halone : ∀ past, past <+: later →
      ((Agent.reached steps config ops).run past).StepsAlone id thread) :
    Follows steps config (ops ++ later) id thread := by
  induction later generalizing ops with
  | nil => rwa [List.append_nil]
  | cons op later ih =>
      have hreached : Agent.reached steps config (ops ++ [op]) =
          (Agent.reached steps config ops).apply op := Agent.run_append _ ops [op]
      rw [List.append_cons]
      refine ih (h.apply (halone [] List.nil_prefix) op) fun past hpast => ?_
      rw [hreached]
      exact halone (op :: past) ((List.prefix_cons_inj op).mpr hpast)

/-- A step request that has just been set, and is the only one for its thread. -/
theorem of_set {caller : NativeThread} {policy : SuspendPolicy} {modifiers : List EventModifier}
    {name : ObjectId} {size : StepSize} {depth : StepDepth}
    (hstep : .step name size depth ∈ modifiers)
    (hset : (Agent.serve caller (.setEvent EventKind.singleStep.code policy modifiers)
      (Agent.reached steps config ops)).1 = .ok (.request id)) :
    let before := Agent.reached steps config ops
    let setting : Op := .command caller (.setEvent EventKind.singleStep.code policy modifiers)
    let set := before.apply setting
    ∃ thread request, before.tracker.target? before.vm name = some thread ∧
      set.requests.find? id = some request ∧ request.kind = .singleStep ∧
      set.steppedThread? request = some thread ∧
      ((∀ filter ∈ request.filters, filter.stepState? = none → filter.named? = none) →
        set.StepsAlone id thread → Follows steps config (ops ++ [setting]) id thread) := by
  intro before setting set
  have hs : Sound before := sound_reached steps config ops
  have hreached : Agent.reached steps config (ops ++ [setting]) = set :=
    Agent.run_append _ ops [setting]
  have ho : Orderly set := hreached ▸ orderly_reached steps config _
  obtain ⟨thread, start, hnamed, -, request, hmem, hid, hkind, hsteps⟩ :=
    steps_of_set hstep hs hset
  have hmem : request ∈ set.requests.requests := hmem
  have hfound : set.requests.find? id = some request := (find?_eq_some_iff ho).mpr ⟨hmem, hid⟩
  have hdesignated : Designated steps config (ops ++ [setting]) name thread :=
    ⟨ops, List.prefix_append _ _, hnamed⟩
  have hthread : set.steppedThread? request = some thread := by
    rw [← hreached] at hmem ⊢
    exact steppedThread?_of_designated hmem hkind hsteps hdesignated
  refine ⟨thread, request, hnamed, hfound, hkind, hthread, fun hunnamed halone => ?_⟩
  have hnone : ∀ {kind name held}, before.requests.notifications.get? (kind, some name) =
      some held → before.threadOf held ≠ some thread := nothing_held_before_set hset halone
  obtain ⟨-, -, henabled⟩ := leads_met hs (met_reached steps config ops)
    (leads_apply setting hs.toOrderly)
  have hpositive : 1 ≤ request.id := by
    have hids := idsPositive_reached steps config (ops ++ [setting])
    rw [hreached] at hids
    exact hids.2 request hmem
  have honly : ∀ other, set.requests.find? id = some other → other = request := fun other hother =>
    Option.some.inj (hother.symm.trans hfound)
  refine ⟨hid ▸ Int.ne_of_gt hpositive, ?_, ⟨⟨name, size, depth, start⟩, ?_, hdesignated⟩, ?_, ?_⟩
  · rw [hreached, ← hid]
    exact ho.fresh request hmem
  · rw [hreached]
    intro other hother
    rw [honly other hother]
    exact ⟨hkind, hsteps⟩
  · rw [hreached]
    intro other hother filter hfilter
    rw [honly other hother] at hfilter
    cases hstep : filter.stepState? with
    | none => exact hunnamed filter hfilter hstep
    | some state =>
        rw [Filter.stepState?_eq_some.mp hstep]
        rfl
  · rw [hreached]
    exact fun _ => henabled thread (fun _ _ _ hheld htarget => absurd htarget (hnone hheld))
      fun _ _ _ _ _ hheld _ htarget _ => absurd htarget (hnone hheld)

end Follows

end Run

/-! ### Two runs -/

/-- The operation is neither one of the debugged world nor a callback. -/
def Op.isClients (op : Op) : Bool := !op.isWorldly && !op.callsBack

/-- Two operations are the same to a request for the steps of a thread.  After a step of the
debugged world the thread shows the same, callbacks report the same step of the thread or none, and
what the client does clears the request or does not. -/
inductive Op.SameFor (thread : HeapId) (id : RequestId) (a b : Agent) : Op → Op → Prop
  | world {step step' : Vm.Setup}
      (hview : (a.apply (.setup step)).vm.stepView thread =
        (b.apply (.setup step')).vm.stepView thread) :
      SameFor thread id a b (.setup step) (.setup step')
  | callback {op op' : Op} (hop : op.callsBack) (hop' : op'.callsBack)
      (hstep : a.stepTo? thread op = b.stepTo? thread op') : SameFor thread id a b op op'
  | client {op op' : Op} (hop : op.isClients) (hop' : op'.isClients)
      (hclears : op.clearsStep id = op'.clearsStep id) : SameFor thread id a b op op'

/-- Two runs are the same to a request for the steps of a thread, but that in the second one the
client gives identifiers back in between. -/
inductive SideBySide (thread : HeapId) (id : RequestId) : Agent → List Op → Agent → List Op → Prop
  | nil {a b : Agent} : SideBySide thread id a [] b []
  | disposed {a b : Agent} {ops ops' : List Op} (caller : NativeThread)
      (requests : List DisposeRequest)
      (h : SideBySide thread id a ops (b.apply (.command caller (.disposeObjects requests))) ops') :
      SideBySide thread id a ops b (.command caller (.disposeObjects requests) :: ops')
  | both {a b : Agent} {op op' : Op} {ops ops' : List Op} (hsame : op.SameFor thread id a b op')
      (h : SideBySide thread id (a.apply op) ops (b.apply op') ops') :
      SideBySide thread id a (op :: ops) b (op' :: ops')

/-- What becomes of a request in the callbacks of a run: the events under its identifier, with their
positions, and whether the request is registered after that. -/
def Agent.outcomes (a : Agent) (id : RequestId) :
    List Op → List (List (RequestId × Option (MethodId × Nat)) × Bool)
  | [] => []
  | op :: ops =>
      let rest := (a.apply op).outcomes id ops
      if op.callsBack then
        ((a.eventsUnder id op).map Event.stop, (a.apply op).requests.contains id) :: rest
      else rest

namespace Op.SameFor

theorem callsBack (h : op.SameFor thread id a b op') : op'.callsBack = op.callsBack := by
  cases h with
  | world => rfl
  | callback hop hop' => rw [hop, hop']
  | client hop hop' =>
      rw [isClients, Bool.and_eq_true, Bool.not_eq_true', Bool.not_eq_true'] at hop hop'
      rw [hop.2, hop'.2]

theorem stepTo?_of_isClients (hop : op.isClients) : a.stepTo? thread op = none := by
  cases op <;> first | rfl | cases hop

theorem clearsStep_of_callsBack (hop : op.callsBack) : op.clearsStep id = false := by
  cases op <;> first | rfl | cases hop

theorem footing? (h : op.SameFor thread id a b op')
    (hview : a.vm.stepView thread = b.vm.stepView thread) :
    a.footing? thread op = b.footing? thread op' := by
  rw [Agent.footing?, Agent.footing?, hview]
  cases h with
  | world => rfl
  | callback hop hop' hstep => rw [hstep]
  | client hop hop' => rw [stepTo?_of_isClients hop, stepTo?_of_isClients hop']

theorem clearsStep (h : op.SameFor thread id a b op') : op.clearsStep id = op'.clearsStep id := by
  cases h with
  | world => rfl
  | callback hop hop' => rw [clearsStep_of_callsBack hop, clearsStep_of_callsBack hop']
  | client _ _ hclears => exact hclears

/-- The thread shows the same after that as well. -/
theorem stepView (h : op.SameFor thread id a b op')
    (hview : a.vm.stepView thread = b.vm.stepView thread) (hthread : (a.vm.threadAt? thread).isSome)
    (hthread' : (b.vm.threadAt? thread).isSome) :
    (a.apply op).vm.stepView thread = (b.apply op').vm.stepView thread := by
  have hkept : op.isWorldly = false → op'.isWorldly = false →
      (a.apply op).vm.stepView thread = (b.apply op').vm.stepView thread := fun hop hop' =>
    ((keepsWorld_apply hop a).stepView hthread).trans
      (hview.trans ((keepsWorld_apply hop' b).stepView hthread').symm)
  cases h with
  | world hview => exact hview
  | callback hop hop' =>
      apply hkept
      · cases op <;> first | rfl | cases hop
      · cases op' <;> first | rfl | cases hop'
  | client hop hop' =>
      rw [isClients, Bool.and_eq_true, Bool.not_eq_true'] at hop hop'
      exact hkept hop.1 hop'.1

end Op.SameFor

/-! ### Runs that differ in what is given back -/

/-- The operation means the same in any two states that show the same of a thread: the client does
something, code is run, or the machine delivers a callback. -/
def Op.isPlain : Op → Bool
  | .setup step => step.runsCode
  | .callback .. => false
  | _ => true

theorem isThread_of_isPlain (hplain : op.isPlain) (hthread : (a.vm.threadAt? thread).isSome) :
    ((a.apply op).vm.threadAt? thread).isSome := by
  cases op with
  | setup step => exact (Vm.stepView_of_runsCode hplain rfl hthread hthread).1
  | _ => exact (keepsWorld_apply rfl a).isThread hthread

theorem Op.SameFor.of_isPlain (hplain : op.isPlain)
    (hview : a.vm.stepView thread = b.vm.stepView thread) (hthread : (a.vm.threadAt? thread).isSome)
    (hthread' : (b.vm.threadAt? thread).isSome) : op.SameFor thread id a b op := by
  cases op with
  | setup step => exact .world (Vm.stepView_of_runsCode hplain hview hthread hthread').2.2
  | callback => cases hplain
  | deliver caller c =>
      refine .callback rfl rfl ?_
      cases c <;> rfl
  | _ => exact .client rfl rfl rfl

/-- The second run is the first one with identifiers given back in between. -/
inductive GivesBack : List Op → List Op → Prop
  | nil : GivesBack [] []
  | disposed {ops ops' : List Op} (caller : NativeThread) (requests : List DisposeRequest)
      (h : GivesBack ops ops') :
      GivesBack ops (.command caller (.disposeObjects requests) :: ops')
  | kept {ops ops' : List Op} (op : Op) (h : GivesBack ops ops') :
      GivesBack (op :: ops) (op :: ops')

/-- Where code is run, callbacks are delivered and the client does what it likes, a run and the same
run with identifiers given back in between are side by side. -/
theorem GivesBack.sideBySide {ops ops' : List Op} (h : GivesBack ops ops')
    (hplain : ∀ op ∈ ops, op.isPlain) (hview : a.vm.stepView thread = b.vm.stepView thread)
    (hthread : (a.vm.threadAt? thread).isSome) (hthread' : (b.vm.threadAt? thread).isSome) :
    SideBySide thread id a ops b ops' := by
  induction h generalizing a b with
  | nil => exact .nil
  | disposed caller requests _ ih =>
      have hkept := @keepsWorld_apply (.command caller (.disposeObjects requests)) rfl b
      exact .disposed caller requests (ih hplain (hview.trans (hkept.stepView hthread').symm)
        hthread (hkept.isThread hthread'))
  | kept op _ ih =>
      obtain ⟨hop, hrest⟩ := List.forall_mem_cons.mp hplain
      have hsame : op.SameFor thread id a b op := .of_isPlain hop hview hthread hthread'
      exact .both hsame (ih hrest (hsame.stepView hview hthread hthread')
        (isThread_of_isPlain hop hthread) (isThread_of_isPlain hop hthread'))

/-! ### The same outcomes -/

namespace Follows

variable {steps : List Vm.Setup} {config : Config} {hist hist' : List Op}

/-- Where the request is registered, two operations that are the same for it have the same outcome,
and where it is gone nothing happens. -/
theorem sameFor (ha : Follows steps config hist id thread)
    (hb : Follows steps config hist' id thread) :
    let a := Agent.reached steps config hist
    let b := Agent.reached steps config hist'
    op.SameFor thread id a b op' → a.requests.find? id = b.requests.find? id →
    (a.requests.contains id → a.vm.stepView thread = b.vm.stepView thread) →
    (a.eventsUnder id op).map Event.stop = (b.eventsUnder id op').map Event.stop ∧
      (a.apply op).requests.find? id = (b.apply op').requests.find? id ∧
      ((a.apply op).requests.contains id →
        (a.apply op).vm.stepView thread = (b.apply op').vm.stepView thread) := by
  intro a b hsame hfound hview
  cases hregistered : a.requests.find? id with
  | none =>
      have hsilent : ∀ {hist op}, Follows steps config hist id thread →
          (Agent.reached steps config hist).requests.find? id = none →
            (Agent.reached steps config hist).eventsUnder id op = [] ∧
              ((Agent.reached steps config hist).apply op).requests.find? id = none := by
        intro hist op h hnone
        have ho := orderly_reached steps config hist
        refine ⟨?_, find?_apply_of_gone ho h.old hnone⟩
        by_contra hevents
        obtain ⟨request, hrequest, -⟩ :=
          (mem_fires_iff ho op h.id_ne).mp (mem_fires_iff_eventsUnder.mpr hevents)
        cases hnone.symm.trans hrequest
      obtain ⟨hevents, hgone⟩ := @hsilent _ op ha hregistered
      obtain ⟨hevents', hgone'⟩ := @hsilent _ op' hb (hfound.symm.trans hregistered)
      rw [hevents, hevents', hgone, hgone']
      refine ⟨rfl, rfl, fun hcontains => ?_⟩
      rw [RequestTable.contains, hgone] at hcontains
      cases hcontains
  | some request =>
      have hseen := hview (isRegistered_iff.mpr ⟨request, hregistered⟩)
      have hina := ha.stepsIn hregistered
      have hinb := hb.stepsIn (hfound.symm.trans hregistered)
      obtain ⟨-, rfl⟩ := (find?_eq_some_iff (orderly_reached steps config hist)).mp hregistered
      have hfails : a.vm.attachFails = b.vm.attachFails := congrArg StepView.attachFails hseen
      have hclears : a.clears request op = b.clears request op' := by
        rw [hina.clears_eq, hinb.clears_eq, hfails, hsame.clearsStep]
      obtain ⟨hevents, hafter⟩ := hina.alike hinb (hsame.footing? hseen) hclears
      exact ⟨hevents, hafter, fun _ => hsame.stepView hseen hina.isThread hinb.isThread⟩

/-- The client gives identifiers back, and the request stays what it is. -/
theorem disposed (h : Follows steps config hist id thread) (caller : NativeThread)
    (requests : List DisposeRequest) :
    let a := Agent.reached steps config hist
    let b := a.apply (.command caller (.disposeObjects requests))
    b.requests.find? id = a.requests.find? id ∧
      (a.requests.contains id → b.vm.stepView thread = a.vm.stepView thread) := by
  intro a b
  have ho : Orderly a := orderly_reached steps config hist
  constructor
  · cases hregistered : a.requests.find? id with
    | none => exact find?_apply_of_gone ho h.old hregistered
    | some request =>
        obtain ⟨hmem, rfl⟩ := (find?_eq_some_iff ho).mp hregistered
        have hspared : a.clears request (.command caller (.disposeObjects requests)) = false := by
          simp [Agent.clears, ClientCommand.clears]
        exact find?_apply ho hmem hspared
  · intro hregistered
    obtain ⟨request, hfound⟩ := isRegistered_iff.mp hregistered
    exact (keepsWorld_apply rfl a).stepView (h.stepsIn hfound).isThread

end Follows

/-- In both runs the same becomes of the request. -/
theorem SideBySide.outcomes_eq {steps : List Vm.Setup} {config : Config}
    {hist hist' ops ops' : List Op} (h : SideBySide thread id a ops b ops')
    (ha : Agent.reached steps config hist = a)
    (hb : Agent.reached steps config hist' = b) (hfollows : Follows steps config hist id thread)
    (hfollows' : Follows steps config hist' id thread)
    (hfound : a.requests.find? id = b.requests.find? id)
    (hview : a.requests.contains id → a.vm.stepView thread = b.vm.stepView thread)
    (halone : ∀ past, past <+: ops → (a.run past).StepsAlone id thread)
    (halone' : ∀ past, past <+: ops' → (b.run past).StepsAlone id thread) :
    a.outcomes id ops = b.outcomes id ops' ∧
      (a.run ops).requests.find? id = (b.run ops').requests.find? id := by
  induction h generalizing hist hist' with
  | nil => exact ⟨rfl, hfound⟩
  | @disposed a b ops ops' caller requests _ ih =>
      subst ha hb
      let disposal : Op := .command caller (.disposeObjects requests)
      obtain ⟨hsame, hsees⟩ := hfollows'.disposed caller requests
      have hlater := hfollows'.apply (halone' [] List.nil_prefix) disposal
      refine ih rfl (Agent.run_append _ hist' [disposal]) hfollows hlater (hfound.trans hsame.symm)
        (fun hregistered => ?_) halone fun past hpast => ?_
      · have hregistered' := hregistered
        rw [RequestTable.contains, hfound] at hregistered'
        exact (hview hregistered).trans (hsees hregistered').symm
      · exact halone' (disposal :: past) ((List.prefix_cons_inj disposal).mpr hpast)
  | @both a b op op' ops ops' hsame _ ih =>
      subst ha hb
      obtain ⟨hevents, hafter, hsees⟩ := hfollows.sameFor hfollows' hsame hfound hview
      obtain ⟨hrest, hlast⟩ := ih (Agent.run_append _ hist [op]) (Agent.run_append _ hist' [op'])
        (hfollows.apply (halone [] List.nil_prefix) op)
        (hfollows'.apply (halone' [] List.nil_prefix) op') hafter hsees
        (fun past hpast => halone (op :: past) ((List.prefix_cons_inj op).mpr hpast))
        fun past hpast => halone' (op' :: past) ((List.prefix_cons_inj op').mpr hpast)
      refine ⟨?_, hlast⟩
      rw [Agent.outcomes, Agent.outcomes, hrest, hevents, hsame.callsBack, RequestTable.contains,
        RequestTable.contains, hafter]

/-! ### Clearing the request -/

section Clearing

variable {steps : List Vm.Setup} {config : Config} {hist : List Op}

/-- Once the request has been cleared, nothing is held for the thread. -/
theorem nothing_held_of_cleared
    (hfound : (Agent.reached steps config hist).requests.find? id = some request)
    (halone : (Agent.reached steps config hist).StepsAlone id thread) {clearing : Op}
    (hcleared : StepCleared (Agent.reached steps config hist) request
      ((Agent.reached steps config hist).apply clearing)) {kind : CallbackKind} {name : ObjectId}
    {held : Notification} (hheld : ((Agent.reached steps config hist).apply
      clearing).requests.notifications.get? (kind, some name) = some held) :
    ((Agent.reached steps config hist).apply clearing).threadOf held ≠ some thread := by
  intro hthread
  let b := Agent.reached steps config hist
  have hreached : Agent.reached steps config (hist ++ [clearing]) = b.apply clearing :=
    Agent.run_append _ hist [clearing]
  have hmet : ObligationsMet b := met_reached steps config hist
  obtain ⟨before, hbefore, -⟩ := hcleared.carries.held hheld
  have hsame := hcleared.carries.threadOf hmet hheld hbefore
  rw [← hreached] at hheld hthread
  obtain ⟨rfl, other, hother, state, hkind, hsteps, rfl, hdesignated⟩ :=
    stepping_of_held hheld hthread
  rw [hreached, hcleared.requests] at hother
  obtain ⟨hmem, hid⟩ := List.mem_filter.mp hother
  obtain ⟨-, rfl⟩ := (find?_eq_some_iff (orderly_reached steps config hist)).mp hfound
  have hneeded := needsKept_reached steps config hist other hmem
  rw [hkind] at hneeded
  have hin : b.steppedThread? other = some thread := by
    rw [steppedThread?_eq, registration_of_step hneeded hsteps.threads, hbefore, Option.bind_some,
      ← hsame, ← hreached]
    exact hthread
  exact of_decide_eq_true hid
    (halone (isRegistered_iff.mpr ⟨request, hfound⟩) other hmem hkind hin)

/-- The reference that its notification held is deleted, since nothing is left to hold it. -/
theorem deleted_of_cleared {caller : NativeThread} {command : ClientCommand}
    (hcleared : StepCleared (Agent.reached steps config hist) request
      ((Agent.reached steps config hist).apply (.command caller command)))
    (hnothing : ∀ {kind name held}, ((Agent.reached steps config hist).apply
      (.command caller command)).requests.notifications.get? (kind, some name) = some held →
        ((Agent.reached steps config hist).apply (.command caller command)).threadOf held ≠
          some thread) {name : ObjectId} {global : Handle}
    (hheld : (Agent.reached steps config hist).held? (.notification (.singleStep, some name)) =
      some global) (hholds : (Agent.reached steps config hist).vm.HoldsGlobal global thread) :
    ((Agent.reached steps config hist).apply (.command caller command)).vm.refs.get? global.raw =
      none := by
  let b := Agent.reached steps config hist
  let clearing : Op := .command caller command
  have hs : Sound b := sound_reached steps config hist
  have hreached : Agent.reached steps config (hist ++ [clearing]) = b.apply clearing :=
    Agent.run_append _ hist [clearing]
  by_contra hvalid
  obtain ⟨ref, href⟩ := Option.ne_none_iff_exists'.mp hvalid
  have hages : b.vm.Ages (b.apply clearing).vm := (Agent.settled_serve caller _ hs.refs).ages
  rcases hages.old_or_new href with hold | hnew
  · cases hold.symm.trans hholds.get?
    -- a reference that is still valid would be held for something, and only for what it was
    have hlater : (b.apply clearing).vm.HoldsGlobal global thread := ⟨hholds.isNull, href⟩
    have hheldLater := @held_of_hasGlobal steps config (hist ++ [clearing]) global
    rw [hreached] at hheldLater
    obtain ⟨x, hx⟩ := hheldLater ⟨thread, href⟩
    cases hs.once (hcleared.held hx) hheld
    obtain ⟨later, hfoundLater, hglobalLater⟩ := Option.bind_eq_some_iff.mp hx
    refine hnothing hfoundLater ?_
    rw [Agent.threadOf, hglobalLater, Option.bind_some, hlater.target?]
  · exact Nat.not_le_of_lt hnew.1 (hs.refs _ _ hholds.get?)

/-- Clearing the request disables the steps of the thread, and deletes the reference to the thread
that was made for it. -/
theorem Follows.cleared (h : Follows steps config hist id thread)
    (hfound : (Agent.reached steps config hist).requests.find? id = some request)
    (halone : (Agent.reached steps config hist).StepsAlone id thread)
    (hfails : (Agent.reached steps config hist).vm.attachFails = false) (caller : NativeThread) :
    let b := Agent.reached steps config hist
    let cleared := Agent.serve caller (.clearEvent EventKind.singleStep.code id) b
    cleared.1 = .ok .done ∧ b.vm.isEnabled .singleStep (some thread) ∧
      cleared.2.vm.isEnabled .singleStep (some thread) = false ∧
      ∃ global, b.requests.stepThread? request = some global ∧ b.vm.HoldsGlobal global thread ∧
        (∀ object, b.tracker.global? object ≠ some global) ∧
        cleared.2.vm.refs.get? global.raw = none := by
  intro b cleared
  have hin := h.stepsIn hfound
  obtain ⟨state, hsteps⟩ := hin.steps
  have hneeded := hin.needs request hin.mem
  rw [hin.kind] at hneeded
  have hregistration := registration_of_step hneeded hsteps.threads
  obtain ⟨-, rfl⟩ := (find?_eq_some_iff hin.sound.toOrderly).mp hfound
  let clearing : Op := .command caller (.clearEvent EventKind.singleStep.code request.id)
  have hreached : Agent.reached steps config (hist ++ [clearing]) = b.apply clearing :=
    Agent.run_append _ hist [clearing]
  obtain ⟨hdone, hgone⟩ :=
    clear_step hin.sound hin.met hfails hin.mem hin.kind (by rw [hregistration]) caller
  have hnothing : ∀ {kind name held}, (b.apply clearing).requests.notifications.get?
      (kind, some name) = some held → (b.apply clearing).threadOf held ≠ some thread :=
    nothing_held_of_cleared hfound halone hgone
  have hmet : ObligationsMet (b.apply clearing) := hreached ▸ met_reached steps config _
  refine ⟨hdone, hin.enabled, Bool.eq_false_iff.mpr fun henabled => ?_, ?_⟩
  · obtain ⟨name, held, hheld, hthread⟩ := hmet.enabled (isEnabled_iff.mp henabled)
    cases name with
    | none => cases (hmet.threadOf_eq_none hheld).symm.trans hthread
    | some name => exact hnothing hheld hthread
  · have hthread := hin.inThread
    rw [steppedThread?_eq, hregistration] at hthread
    obtain ⟨held, hheld, htarget⟩ := Option.bind_eq_some_iff.mp hthread
    obtain ⟨global, hglobal, hholds, -⟩ := hin.met.global_of_threadOf hheld htarget
    have hkey : b.held? (.notification (.singleStep, some state.thread)) = some global := by
      rw [Agent.held?, hheld]
      exact hglobal
    refine ⟨global, ?_, hholds, fun object hobject => ?_, ?_⟩
    · rw [RequestTable.stepThread?, hregistration, hheld]
      exact hglobal
    · cases hin.sound.once (x := .identifier object) hobject hkey
    · exact deleted_of_cleared hgone hnothing hkey hholds

end Clearing

/-- A step request whose other filters name no object does not notice that identifiers are given
back.  In two runs in which the debugged world does the same to its thread, and the client clears it
in both or in neither, it fires on the same callbacks, under the same identifier, at the same method
and index, and expires with the same callback, however many identifiers are given back in the second
one.  Clearing it after that disables the steps of the thread, and deletes the reference to the
thread that the notification has of its own.  It has to be the only request for steps of the thread
in both. -/
theorem step_survives_disposal (steps : List Vm.Setup) (config : Config) (before : List Op)
    {caller : NativeThread} {policy : SuspendPolicy} {modifiers : List EventModifier}
    {name : ObjectId} {size : StepSize} {depth : StepDepth}
    (hstep : .step name size depth ∈ modifiers)
    (hset : (Agent.serve caller (.setEvent EventKind.singleStep.code policy modifiers)
      (Agent.reached steps config before)).1 = .ok (.request id)) :
    let a := Agent.reached steps config before
    let set := a.apply (.command caller (.setEvent EventKind.singleStep.code policy modifiers))
    ∃ thread request, a.tracker.target? a.vm name = some thread ∧
      set.requests.find? id = some request ∧ request.kind = .singleStep ∧
      set.steppedThread? request = some thread ∧
      ((∀ filter ∈ request.filters, filter.stepState? = none → filter.named? = none) →
        ∀ ops ops', SideBySide thread id set ops set ops' →
          (∀ past, past <+: ops → (set.run past).StepsAlone id thread) →
          (∀ past, past <+: ops' → (set.run past).StepsAlone id thread) →
          let b := set.run ops'
          set.outcomes id ops = set.outcomes id ops' ∧
          (set.run ops).requests.find? id = b.requests.find? id ∧
          ∀ now, b.requests.find? id = some now → b.vm.attachFails = false → ∀ caller,
            let cleared := Agent.serve caller (.clearEvent EventKind.singleStep.code id) b
            cleared.1 = .ok .done ∧ b.vm.isEnabled .singleStep (some thread) ∧
              cleared.2.vm.isEnabled .singleStep (some thread) = false ∧
              ∃ global, b.requests.stepThread? now = some global ∧
                b.vm.HoldsGlobal global thread ∧
                (∀ object, b.tracker.global? object ≠ some global) ∧
                cleared.2.vm.refs.get? global.raw = none) := by
  intro a set
  let setting : Op := .command caller (.setEvent EventKind.singleStep.code policy modifiers)
  have hreached : Agent.reached steps config (before ++ [setting]) = set :=
    Agent.run_append _ before [setting]
  obtain ⟨thread, request, hnamed, hfound, hkind, hthread, hfollows⟩ := Follows.of_set hstep hset
  refine ⟨thread, request, hnamed, hfound, hkind, hthread, ?_⟩
  intro hunnamed ops ops' hruns halone halone' b
  have hfirst := hfollows hunnamed (halone [] List.nil_prefix)
  obtain ⟨houtcomes, hlast⟩ := hruns.outcomes_eq hreached hreached hfirst hfirst rfl (fun _ => rfl)
    halone halone'
  refine ⟨houtcomes, hlast, fun now hnow hfails caller => ?_⟩
  have hend : Agent.reached steps config ((before ++ [setting]) ++ ops') = b := by
    rw [Agent.reached, Agent.run_append, ← Agent.reached, hreached]
  have hfinal := hfirst.run ops' (by rwa [hreached])
  have halong := halone' ops' (List.prefix_refl _)
  rw [← hend] at hnow hfails ⊢
  exact hfinal.cleared hnow (by rwa [hend]) hfails caller

/-- A thread gets a new identifier with each of two steps, since the one before has been given
back. -/
theorem thread_steps_under_new_identifiers :
    let before : List Op := [.command (.client 0) .allThreads]
    let modifiers : List EventModifier := [.step 1 .min .into, .count 3]
    let a := Agent.reached Past.twoThreads.steps {} before
    let set := a.apply (.command (.client 0) (.setEvent EventKind.singleStep.code .none modifiers))
    let step : Op := .deliver (.client 1) (.singleStep 10 0x1000 6)
    let disposal (thread : ObjectId) : Op := .command (.client 0) (.disposeObjects [⟨thread, 1⟩])
    let call : Op := .setup (.pushFrame 10 0x1000 0)
    let ops : List Op := [disposal 1, step, call, disposal 3, step]
    let b := set.run ops
    (Agent.serve (.client 0) (.setEvent EventKind.singleStep.code .none modifiers) a).1 =
        .ok (.request 1) ∧
      ((set.run (ops.take 1)).tracker.global? 1 = none ∧
        (set.run (ops.take 4)).tracker.global? 3 = none) ∧
      set.outcomes 1 ops = [([(1, some (0x1000, 6))], true), ([(1, some (0x1000, 6))], true)] ∧
      b.vm.isEnabled .singleStep (some 10) ∧
      (Agent.serve (.client 0) (.clearEvent EventKind.singleStep.code 1) b).2.vm.isEnabled
        .singleStep (some 10) = false ∧
      ∃ global, b.vm.HoldsGlobal global 10 ∧
        (Agent.serve (.client 0) (.clearEvent EventKind.singleStep.code 1) b).2.vm.refs.get?
          global.raw = none := by
  intro before modifiers a set step disposal call ops b
  have hset : (Agent.serve (.client 0)
      (.setEvent EventKind.singleStep.code .none modifiers) a).1 = .ok (.request 1) := by
    decide +kernel
  have hthread : a.tracker.target? a.vm 1 = some 10 := by decide +kernel
  obtain ⟨thread, request, hnamed, hfound, -, -, hruns⟩ :=
    step_survives_disposal Past.twoThreads.steps {} before
      (show EventModifier.step 1 .min .into ∈ modifiers from List.mem_cons_self) hset
  obtain rfl : thread = 10 := Option.some.inj (hnamed.symm.trans hthread)
  have hgives : GivesBack [step, call, step] ops :=
    .disposed _ _ (.kept step (.kept call (.disposed _ _ (.kept step .nil))))
  have hsides : SideBySide 10 1 set [step, call, step] set ops :=
    hgives.sideBySide (by simp [step, call, Op.isPlain, Vm.Setup.runsCode]) rfl
      (by decide +kernel) (by decide +kernel)
  have halone : ∀ past ∈ [step, call, step].inits ++ ops.inits, (set.run past).StepsAlone 1 10 := by
    decide +kernel
  have hunnamed : ∀ filter ∈ request.filters,
      filter.stepState? = none → filter.named? = none := by
    have hall : ∀ registered ∈ set.requests.requests, ∀ filter ∈ registered.filters,
        filter.stepState? = none → filter.named? = none := by
      decide +kernel
    have hmem : ∀ t : RequestTable, t.find? 1 = some request → request ∈ t.requests :=
      fun t hfound => List.mem_of_find?_eq_some hfound
    exact hall request (hmem _ hfound)
  obtain ⟨houtcomes, -, hcleared⟩ := hruns hunnamed [step, call, step] ops hsides
    (fun past hpast => halone past (List.mem_append_left _ (List.mem_inits _ _ |>.mpr hpast)))
    fun past hpast => halone past (List.mem_append_right _ (List.mem_inits _ _ |>.mpr hpast))
  have hplain : set.outcomes 1 [step, call, step] =
      [([(1, some (0x1000, 6))], true), ([(1, some (0x1000, 6))], true)] := by
    decide +kernel
  have hregistered : b.requests.contains 1 := by decide +kernel
  obtain ⟨now, hnow⟩ := isRegistered_iff.mp hregistered
  obtain ⟨-, henabled, hdisabled, global, -, hholds, -, hdeleted⟩ :=
    hcleared now hnow (by decide +kernel) (.client 0)
  subst b set a
  exact ⟨hset, by decide +kernel, houtcomes.symm.trans hplain, henabled, hdisabled,
    global, hholds, hdeleted⟩

end DebugAgent
