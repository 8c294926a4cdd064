import DebugAgent.Proofs.Obligations

/-!
# Notifications wanted

Told from the outside, a notification is wanted by a registered request of its kind, by a step
request that was set on its thread, or by the session.  Nothing else is ever enabled, and what is
wanted for all threads always is.  Steps are wanted thread by thread while requests share by
identifier: as long as no two step requests name one thread by two identifiers, exactly what is
wanted is enabled, and as soon as two do, clearing those of the one takes it away from the other.
-/

namespace DebugAgent

open Registration

section History

variable (steps : List Vm.Setup) (config : Config) (ops : List Op)

/-- An identifier designates an object at some moment of a run. -/
def Designated (id : ObjectId) (object : HeapId) : Prop :=
  ∃ past, past <+: ops ∧
    let a := Agent.reached steps config past
    a.tracker.target? a.vm id = some object

/-- A step request that was set on a thread. -/
def StepsOn (request : Request) (thread : HeapId) : Prop :=
  request.kind = .singleStep ∧ ∃ id, request.filters.filterMap stepThreadOf? = [id] ∧
    Designated steps config ops id thread

/-- A notification that a registered request needs, or the session. -/
inductive Wanted : CallbackKind → Option HeapId → Prop where
  | event {request kind} (hmem : request ∈ (Agent.reached steps config ops).requests.requests)
      (hstep : request.kind ≠ .singleStep) (hkind : request.kind.callbackKind = .ok kind) :
      Wanted kind none
  | step {request thread} (hmem : request ∈ (Agent.reached steps config ops).requests.requests)
      (hon : StepsOn steps config ops request thread) : Wanted .singleStep (some thread)
  | session (hattached : (Agent.reached steps config ops).isAttached) : Wanted .vmDeath none

/-- Exactly the notifications wanted are enabled. -/
def NotificationsExact : Prop :=
  ∀ kind thread, (Agent.reached steps config ops).vm.isEnabled kind thread ↔
    Wanted steps config ops kind thread

/-- Step requests that were set on one thread name it by the same identifier. -/
def StepsApart : Prop :=
  ∀ request ∈ (Agent.reached steps config ops).requests.requests,
    ∀ request' ∈ (Agent.reached steps config ops).requests.requests, ∀ thread,
      StepsOn steps config ops request thread → StepsOn steps config ops request' thread →
        request.filters.filterMap stepThreadOf? = request'.filters.filterMap stepThreadOf?

end History

/-! ### What held notifications say about requests -/

section State

variable {a : Agent} {kind : CallbackKind}

theorem isEnabled_iff {thread : Option HeapId} :
    a.vm.isEnabled kind thread ↔ (kind, thread) ∈ a.vm.notifications := by
  simp [Vm.isEnabled]

theorem obligations_pos {key : NotificationKey} :
    0 < a.obligations key ↔
      (∃ request ∈ a.requests.requests, request.registration.notification = key) ∨
        key = (.vmDeath, none) ∧ a.isAttached := by
  have hcount :
      0 < a.requests.requests.countP (fun request => request.registration.notification = key) ↔
        ∃ request ∈ a.requests.requests, request.registration.notification = key := by
    simp [List.countP_pos_iff]
  rw [← hcount]
  rw [Agent.obligations, Agent.isAttached]
  split
  · simp [*]
  · simp [*]

theorem ObligationsMet.held_iff (hmet : ObligationsMet a) {key : NotificationKey} :
    (∃ held, a.requests.notifications.get? key = some held) ↔ 0 < a.obligations key := by
  have hcounted := hmet.counted key
  constructor
  · rintro ⟨held, hheld⟩
    rw [hheld] at hcounted
    grind
  · intro hpos
    rw [if_neg (Nat.ne_of_gt hpos)] at hcounted
    obtain ⟨held, hheld, -⟩ := Option.map_eq_some_iff.mp hcounted
    exact ⟨held, hheld⟩

/-- What is held for all threads is needed by a request that is no step request, or by the session.
-/
theorem needed_of_forAll (hmet : ObligationsMet a) (hn : NeedsKept a) :
    (∃ held, a.requests.notifications.get? (kind, none) = some held) ↔
      (∃ request ∈ a.requests.requests, request.kind ≠ .singleStep ∧
        request.kind.callbackKind = .ok kind) ∨ kind = .vmDeath ∧ a.isAttached := by
  rw [hmet.held_iff, obligations_pos]
  refine or_congr ⟨?_, ?_⟩ (by simp)
  · rintro ⟨request, hmem, hkey⟩
    obtain ⟨hkind, hcases⟩ := notification_of_needed (hn request hmem)
    rw [hkey] at hkind hcases
    rcases hcases with ⟨hstep, -⟩ | ⟨id, -, hsome, -⟩
    · exact ⟨request, hmem, hstep, hkind⟩
    · cases hsome
  · rintro ⟨request, hmem, hstep, hkind⟩
    obtain ⟨hkind', hcases⟩ := notification_of_needed (hn request hmem)
    refine ⟨request, hmem, Prod.ext ?_ ?_⟩
    · exact (Except.ok.inj (hkind.symm.trans hkind')).symm
    · rcases hcases with ⟨-, hnone⟩ | ⟨id, hsingle, -⟩
      · exact hnone
      · exact absurd hsingle hstep

/-- What is held for one thread is needed by a step request. -/
theorem needed_of_forOne (hmet : ObligationsMet a) (hn : NeedsKept a) {id : ObjectId} :
    (∃ held, a.requests.notifications.get? (kind, some id) = some held) ↔
      kind = .singleStep ∧ ∃ request ∈ a.requests.requests, request.kind = .singleStep ∧
        request.filters.filterMap stepThreadOf? = [id] := by
  rw [hmet.held_iff, obligations_pos]
  constructor
  · rintro (⟨request, hmem, hkey⟩ | ⟨hkey, -⟩)
    · obtain ⟨hkind, hcases⟩ := notification_of_needed (hn request hmem)
      rw [hkey] at hkind hcases
      rcases hcases with ⟨-, hnone⟩ | ⟨thread, hstep, hsome, hthread⟩
      · cases hnone
      · cases hsome
        rw [hstep] at hkind
        exact ⟨(Except.ok.inj hkind).symm, request, hmem, hstep, hthread⟩
    · cases hkey
  · rintro ⟨rfl, request, hmem, hstep, hthread⟩
    have hneeded := hn request hmem
    rw [hstep] at hneeded
    exact .inl ⟨request, hmem, by rw [registration_of_step hneeded hthread]⟩

end State

/-! ### Exactness -/

section Exact

variable {steps : List Vm.Setup} {config : Config} {ops : List Op} {id : ObjectId}
  {object object' : HeapId}

theorem Designated.mono {more : List Op} (hd : Designated steps config ops id object)
    (hlonger : ops <+: more) : Designated steps config more id object := by
  obtain ⟨past, hpast, htarget⟩ := hd
  exact ⟨past, hpast.trans hlonger, htarget⟩

/-- No identifier ever designates another object than it does at first. -/
theorem Designated.unique (hd : Designated steps config ops id object)
    (hd' : Designated steps config ops id object') : object = object' := by
  have hback : ∀ {past later : List Op} {o o' : HeapId}, past <+: later →
      (Agent.reached steps config past).tracker.target?
        (Agent.reached steps config past).vm id = some o →
      (Agent.reached steps config later).tracker.target?
        (Agent.reached steps config later).vm id = some o' → o = o' := by
    rintro past _ o o' ⟨rest, rfl⟩ htarget htarget'
    have hs := sound_reached steps config past
    obtain ⟨global, hglobal, -⟩ := hs.target?_eq_some.mp htarget
    obtain ⟨entry, hentry, -⟩ := Option.map_eq_some_iff.mp hglobal
    rw [Agent.reached, Agent.run_append] at htarget'
    have hrest := unfolds_run hs.toOrderly rest
    have hbefore := (hs.designated_before hrest).2 (hs.inUse hentry).2.1 htarget'
    exact Option.some.inj (htarget.symm.trans hbefore)
  obtain ⟨past, hpast, htarget⟩ := hd
  obtain ⟨past', hpast', htarget'⟩ := hd'
  rcases List.prefix_or_prefix_of_prefix hpast hpast' with hle | hle
  · exact hback hle htarget htarget'
  · exact (hback hle htarget' htarget).symm

theorem met_reached (steps : List Vm.Setup) (config : Config) (ops : List Op) :
    ObligationsMet (Agent.reached steps config ops) :=
  (met_start steps config).run (sound_reached steps config []) ops

/-- The identifier that a notification is held under designated its thread. -/
theorem designated_of_held {kind : CallbackKind} {held : Notification} {thread : HeapId}
    (hheld : (Agent.reached steps config ops).requests.notifications.get? (kind, some id) =
      some held) (hthread : (Agent.reached steps config ops).threadOf held = some thread) :
    Designated steps config ops id thread := by
  rcases named_run (sound_reached steps config []) (met_start steps config) ops hheld with
    ⟨before, hbefore, -⟩ | ⟨past, hpast, hdesignates⟩
  · cases hbefore
  · exact ⟨past, hpast, hdesignates.trans hthread⟩

/-- The notification for one thread that is held under an identifier is wanted on this thread. -/
theorem keysApart_of_stepsApart (hapart : StepsApart steps config ops) (thread : HeapId) :
    KeysApart (Agent.reached steps config ops) thread := by
  have hmet := met_reached steps config ops
  have hn := needsKept_reached steps config ops
  intro kind id id' held held' hheld hheld' hthread hthread'
  obtain ⟨-, request, hmem, hstep, hid⟩ := (needed_of_forOne hmet hn).mp ⟨held, hheld⟩
  obtain ⟨-, request', hmem', hstep', hid'⟩ := (needed_of_forOne hmet hn).mp ⟨held', hheld'⟩
  have heq := hapart request hmem request' hmem' thread
    ⟨hstep, id, hid, designated_of_held hheld hthread⟩
    ⟨hstep', id', hid', designated_of_held hheld' hthread'⟩
  rw [hid, hid'] at heq
  exact List.singleton_inj.mp heq

theorem wanted_of_enabled {kind : CallbackKind} {thread : Option HeapId}
    (henabled : (Agent.reached steps config ops).vm.isEnabled kind thread) :
    Wanted steps config ops kind thread := by
  have hmet := met_reached steps config ops
  have hn := needsKept_reached steps config ops
  obtain ⟨id, held, hheld, hthread⟩ := hmet.enabled (isEnabled_iff.mp henabled)
  cases id with
  | none =>
      rw [← hthread, hmet.threadOf_eq_none hheld]
      rcases (needed_of_forAll hmet hn).mp ⟨held, hheld⟩ with
        ⟨request, hmem, hstep, hkind⟩ | ⟨rfl, hattached⟩
      · exact .event hmem hstep hkind
      · exact .session hattached
  | some id =>
      obtain ⟨object, hobject⟩ := hmet.threadOf_eq_some hheld
      obtain ⟨rfl, request, hmem, hstep, hid⟩ := (needed_of_forOne hmet hn).mp ⟨held, hheld⟩
      rw [← hthread, hobject]
      exact .step hmem ⟨hstep, id, hid, designated_of_held hheld hobject⟩

theorem enabled_of_wanted {kind : CallbackKind} (hwanted : Wanted steps config ops kind none) :
    (Agent.reached steps config ops).vm.isEnabled kind none := by
  have hmet := met_reached steps config ops
  have hn := needsKept_reached steps config ops
  obtain ⟨held, hheld⟩ : ∃ held,
      (Agent.reached steps config ops).requests.notifications.get? (kind, none) = some held := by
    apply (needed_of_forAll hmet hn).mpr
    cases hwanted with
    | event hmem hstep hkind => exact .inl ⟨_, hmem, hstep, hkind⟩
    | session hattached => exact .inr ⟨rfl, hattached⟩
  exact isEnabled_iff.mpr (hmet.all hheld)

/-- What is wanted for one thread is enabled as long as the keys have been apart. -/
theorem enabled_of_apart (hapart : ∀ past, past <+: ops → StepsApart steps config past)
    {kind : CallbackKind} {thread : HeapId}
    (hwanted : Wanted steps config ops kind (some thread)) :
    (Agent.reached steps config ops).vm.isEnabled kind (some thread) := by
  have hmet := met_reached steps config ops
  have hn := needsKept_reached steps config ops
  have hsteps : StepsEnabled (Agent.reached steps config ops) thread :=
    stepsEnabled_run (sound_reached steps config []) (met_start steps config)
      (fun _ _ _ hheld => by cases hheld) ops
      fun past hpast => keysApart_of_stepsApart (hapart past hpast) thread
  cases hwanted with
  | step hmem hon =>
      obtain ⟨hstep, id, hid, hdesignated⟩ := hon
      obtain ⟨held, hheld⟩ := (needed_of_forOne hmet hn).mpr ⟨rfl, _, hmem, hstep, hid⟩
      obtain ⟨object, hobject⟩ := hmet.threadOf_eq_some hheld
      have heq := (designated_of_held hheld hobject).unique hdesignated
      exact isEnabled_iff.mpr (hsteps hheld (heq ▸ hobject))

end Exact

/-! ### What a thread with two identifiers loses -/

section Loss

variable {a : Agent} {key : NotificationKey}

theorem attachFails_freed (thread : Option Handle) (vm : Vm) :
    (freed thread vm).attachFails = vm.attachFails := by
  have hdelete : ∀ global : Handle,
      (vm.deleteRef .globalRef global).attachFails = vm.attachFails := by
    intro global
    obtain ⟨refs, heq⟩ := vm.deleteRef_eq .globalRef global
    rw [heq]
  cases thread with
  | none => rfl
  | some global => exact hdelete global

/-- What the clearing of a step request leaves behind. -/
structure StepCleared (a : Agent) (request : Request) (c : Agent) : Prop where
  carries : NotificationsHeld.Carries a c
  held : ∀ {x global}, c.held? x = some global → a.held? x = some global
  requests : c.requests.requests = a.requests.requests.filter fun r => r.id ≠ request.id
  session : c.session = a.session
  attaches : c.vm.attachFails = false
  /-- The notification is counted once less, or it is disabled. -/
  counted : ∀ {held}, a.requests.notifications.get? request.registration.notification = some held →
    (∃ fewer, c.requests.notifications.get? request.registration.notification = some fewer) ∨
      c.vm.notifications = a.vm.notifications.filter fun e =>
        e ≠ (request.registration.notification.1, a.threadOf held)

theorem clear_step (hs : Sound a) (hmet : ObligationsMet a) (hfails : a.vm.attachFails = false)
    {request : Request} (hmem : request ∈ a.requests.requests)
    (hstep : request.kind = .singleStep) (hnone : request.registration.breakpoint = none)
    (caller : NativeThread) :
    (Agent.serve caller (.clearEvent 1 request.id) a).1 = .ok .done ∧
      StepCleared a request (a.apply (.command caller (.clearEvent 1 request.id))) := by
  let b := a.setVm (a.vm.attach caller).2
  have hattached : Change a b := .machine (Vm.frame_attach caller).keeps
  obtain ⟨released, c, hreleases, hdisables, hremove⟩ :=
    remove_releases (a := b) request (hs.change hattached).counts
  have hcleared : Change b c := .remove hmem hreleases hdisables
  have hfind : b.requests.find? request.id = some request := find?_of_mem hs.sorted hmem
  have hcode : EventKind.ofCode 1 = .ok .singleStep := rfl
  have hperform : (Command.done (Command.EventRequest.clear 1 request.id)).perform b =
      (.ok .done, c) := by
    simp [Command.done, Command.EventRequest.clear, Action.ofExcept, hcode, Registration.clear,
      Action.perform_bind, hfind, hstep, hremove, Except.map]
  have hserve : Agent.serve caller (.clearEvent 1 request.id) a = (.ok .done, c) := by
    refine (answer_of_attaching hfails caller _).trans ?_
    rw [Command.ofClient, hperform]
    rfl
  have happly : a.apply (.command caller (.clearEvent 1 request.id)) = c := congrArg Prod.snd hserve
  -- the request is gone before its notification is given up, and it has no breakpoint
  rw [hnone] at hreleases
  cases hreleases with
  | none =>
      obtain ⟨hcarries, hmetb, -⟩ := hmet.change hs hattached
      obtain ⟨hcarries', -, -⟩ := hmetb.change (hs.change hattached) hcleared
      have hdropped : HoldsSoundly (b.dropRequest request.id) :=
        (hs.change hattached).toHoldsSoundly.of_held fun hx => ⟨hx, fun _ hglobal => hglobal⟩
      rw [hserve, happly]
      refine ⟨rfl, hcarries.trans hcarries', fun hx => (hdisables.held hdropped hx).1, ?_, ?_, ?_,
        fun {held} hheld => ?_⟩
      · obtain ⟨thread, enabled, table, rfl⟩ := hdisables.eq
        rfl
      · obtain ⟨thread, enabled, table, rfl⟩ := hdisables.eq
        rfl
      · obtain ⟨thread, enabled, table, rfl⟩ := hdisables.eq
        calc
          _ = b.vm.attachFails := attachFails_freed thread (b.vm.putNotifications enabled)
          _ = a.vm.attachFails := attachFails_attach _ _
          _ = false := hfails
      · have hdropped : NotificationsHeld.Carries b (b.dropRequest request.id) :=
          NotificationsHeld.carries_of_eq rfl rfl rfl rfl
        have hrest := (hmetb.of_same hdropped rfl rfl).1
        have hthread : (b.dropRequest request.id).threadOf held = a.threadOf held :=
          hcarries.threadOf hmet hheld hheld
        have hsame : (b.dropRequest request.id).vm.notifications = a.vm.notifications :=
          (Vm.frame_attach caller).notifications
        rcases hrest.notifications_of_disables hheld hdisables with
          ⟨-, -, htable⟩ | ⟨-, henabled, -⟩
        · exact .inl ⟨_, by rw [htable]; exact Table.get?_insert_self _ _ _⟩
        · right
          rw [henabled, hthread, hsame]

/-- Step requests name a thread by an identifier, and there is a request besides that does not. -/
structure Overlap (a : Agent) (id : ObjectId) (thread : HeapId) (other : Request) : Prop where
  attaches : a.vm.attachFails = false
  held : ∃ held, a.requests.notifications.get? (.singleStep, some id) = some held ∧
    a.threadOf held = some thread
  mem : other ∈ a.requests.requests
  ne : other.registration.notification ≠ (.singleStep, some id)

/-- Clearing one of the requests that name the thread so takes the notification away, or there are
fewer of them. -/
theorem Overlap.step {id : ObjectId} {thread : HeapId} {other : Request}
    (ho : Overlap a id thread other) (hs : Sound a) (hmet : ObligationsMet a) (hn : NeedsKept a) :
    ∃ op, other ∈ (a.apply op).requests.requests ∧
      ((.singleStep, some thread) ∉ (a.apply op).vm.notifications ∨
        Overlap (a.apply op) id thread other ∧
          (a.apply op).obligations (.singleStep, some id) <
            a.obligations (.singleStep, some id)) := by
  obtain ⟨held, hheld, hthread⟩ := ho.held
  obtain ⟨-, request, hmem, hstep, hid⟩ := (needed_of_forOne hmet hn).mp ⟨held, hheld⟩
  have hneeded := hn request hmem
  rw [hstep] at hneeded
  have hregistration := registration_of_step hneeded hid
  have hcleared := (clear_step hs hmet ho.attaches hmem hstep (by rw [hregistration]) (.client 0)).2
  have hcounted := hcleared.counted (by rw [hregistration]; exact hheld)
  rw [hregistration] at hcounted
  let op : Op := .command (.client 0) (.clearEvent 1 request.id)
  have hkept : other ∈ (a.apply op).requests.requests := by
    rw [hcleared.requests]
    refine List.mem_filter.mpr ⟨ho.mem, decide_eq_true fun hid => ho.ne ?_⟩
    have hfind := find?_of_mem hs.sorted hmem
    rw [← hid, find?_of_mem hs.sorted ho.mem] at hfind
    rw [Option.some.inj hfind, hregistration]
  refine ⟨op, hkept, ?_⟩
  rcases hcounted with ⟨fewer, hfewer⟩ | henabled
  · right
    refine ⟨⟨hcleared.attaches, ⟨fewer, hfewer, ?_⟩, hkept, ho.ne⟩, ?_⟩
    · exact (hcleared.carries.threadOf hmet hfewer hheld).trans hthread
    · rw [obligations_remove hs.sorted hmem hcleared.requests hcleared.session, hregistration,
        if_pos rfl]
      exact Nat.lt_succ_self _
  · left
    rw [henabled, hthread]
    simp

/-- In the end the notification is gone while the other request is registered still. -/
theorem Overlap.loss {id : ObjectId} {thread : HeapId} {other : Request} :
    ∀ {a : Agent}, Overlap a id thread other → Sound a → ObligationsMet a → NeedsKept a →
      ∃ later, other ∈ (a.run later).requests.requests ∧
        (.singleStep, some thread) ∉ (a.run later).vm.notifications := by
  intro a
  induction hcount : a.obligations (.singleStep, some id) using Nat.strongRecOn generalizing a with
  | ind count ih =>
      intro ho hs hmet hn
      obtain ⟨op, hkept, hgone | ⟨hoverlap, hless⟩⟩ := ho.step hs hmet hn
      · exact ⟨[op], hkept, hgone⟩
      · obtain ⟨later, hmem, hgone⟩ := ih _ (hcount ▸ hless) rfl hoverlap (hs.run [op])
          (hmet.run hs [op]) (hn.run hs.toOrderly [op])
        exact ⟨op :: later, hmem, hgone⟩

/-- Two step requests that name one thread by two identifiers, and one of them can lose. -/
theorem loss_of_not_apart {steps : List Vm.Setup} {config : Config} {ops : List Op}
    (hnot : ¬ StepsApart steps config ops) :
    ∃ later thread, Wanted steps config (ops ++ later) .singleStep (some thread) ∧
      ¬ (Agent.reached steps config (ops ++ later)).vm.isEnabled .singleStep (some thread) := by
  obtain ⟨request, hmem, request', hmem', thread, ⟨hstep, id, hid, hdesignated⟩,
      ⟨hstep', id', hid', hdesignated'⟩, hne⟩ :
      ∃ request ∈ (Agent.reached steps config ops).requests.requests,
        ∃ request' ∈ (Agent.reached steps config ops).requests.requests, ∃ thread,
          StepsOn steps config ops request thread ∧ StepsOn steps config ops request' thread ∧
            request.filters.filterMap stepThreadOf? ≠ request'.filters.filterMap stepThreadOf? := by
    simpa [StepsApart, and_assoc] using hnot
  -- native threads can be attached from now on
  let attaching : Op := .setup (.setAttachFails false)
  let ops' := ops ++ [attaching]
  let a := Agent.reached steps config ops'
  have hs : Sound a := sound_reached steps config ops'
  have hmet : ObligationsMet a := met_reached steps config ops'
  have hn : NeedsKept a := needsKept_reached steps config ops'
  have happly : a = (Agent.reached steps config ops).apply attaching := Agent.run_append _ ops _
  have hrequests : a.requests.requests = (Agent.reached steps config ops).requests.requests := by
    rw [happly]
    rfl
  have hlonger : ops <+: ops' := ⟨[attaching], rfl⟩
  have hoverlap : Overlap a id thread request' := by
    refine ⟨by rw [happly]; rfl, ?_, hrequests ▸ hmem', fun hkey => hne ?_⟩
    · obtain ⟨held, hheld⟩ :=
        (needed_of_forOne hmet hn).mpr ⟨rfl, request, hrequests ▸ hmem, hstep, hid⟩
      obtain ⟨object, hobject⟩ := hmet.threadOf_eq_some hheld
      have heq := (designated_of_held hheld hobject).unique (hdesignated.mono hlonger)
      exact ⟨held, hheld, heq ▸ hobject⟩
    · have hneeded := hn request' (hrequests ▸ hmem')
      rw [hstep'] at hneeded
      rw [registration_of_step hneeded hid'] at hkey
      cases hkey
      rw [hid, hid']
  obtain ⟨later, hkept, hgone⟩ := hoverlap.loss hs hmet hn
  have hrun : Agent.reached steps config (ops ++ attaching :: later) = a.run later := by
    rw [List.append_cons]
    exact Agent.run_append _ ops' later
  refine ⟨attaching :: later, thread, .step (hrun ▸ hkept) ⟨hstep', id', hid', ?_⟩, ?_⟩
  · exact hdesignated'.mono (List.prefix_append _ _)
  · rw [hrun, isEnabled_iff]
    exact hgone

end Loss

/-- Nothing is enabled that is not wanted, and what is wanted for all threads is enabled.  Exactly
what is wanted is enabled as long as no two step requests have named one thread by two identifiers.
When two do, the run can go on so that a step that is wanted is not enabled. -/
theorem notifications_match_requests (steps : List Vm.Setup) (config : Config) (ops : List Op) :
    (∀ kind thread, (Agent.reached steps config ops).vm.isEnabled kind thread →
      Wanted steps config ops kind thread) ∧
    (∀ kind, (Agent.reached steps config ops).vm.isEnabled kind none ↔
      Wanted steps config ops kind none) ∧
    ((∀ past, past <+: ops → StepsApart steps config past) →
      NotificationsExact steps config ops) ∧
    (¬ StepsApart steps config ops →
      ∃ later, ¬ NotificationsExact steps config (ops ++ later)) := by
  refine ⟨fun kind thread => wanted_of_enabled, fun kind => ⟨wanted_of_enabled, enabled_of_wanted⟩,
    fun hapart kind thread => ⟨wanted_of_enabled, fun hwanted => ?_⟩, fun hnot => ?_⟩
  · cases thread with
    | none => exact enabled_of_wanted hwanted
    | some thread => exact enabled_of_apart hapart hwanted
  · obtain ⟨later, thread, hwanted, hgone⟩ := loss_of_not_apart hnot
    exact ⟨later, fun hexact => hgone ((hexact _ _).mpr hwanted)⟩

/-- The first identifier of a thread is given back between two step requests.  Clearing the first
request takes the notification of the second. -/
theorem not_exact_of_two_identifiers :
    ¬ NotificationsExact
      [.defineClass "LMain;", .addMethod 9 { name := "main", signature := "()V" },
        .spawnThread "worker", .pushFrame 10 4096 0] {}
      [.command (.client 0) .allThreads,
        .command (.client 0) (.setEvent 1 .none [.step 1 .min .into]),
        .command (.client 0) (.disposeObjects [⟨1, 1⟩]),
        .command (.client 0) .allThreads,
        .command (.client 0) (.setEvent 1 .none [.step 3 .min .into]),
        .command (.client 0) (.clearEvent 1 1)] := by
  intro hexact
  have hgone := (hexact .singleStep (some 10)).mpr
    (.step List.mem_cons_self ⟨rfl, 3, rfl, _, List.take_prefix 4 _, rfl⟩)
  cases hgone

end DebugAgent
