import DebugAgent.Proofs.Notifications

/-!
# Obligations

A notification is needed by the registered requests that were registered for it, and the one of the
machine's death by the session too.  Every change of the agent's state keeps the notifications held
in step with these obligations.  What it does not keep by itself is that what is held for a thread
is enabled: a notification that is given up takes that of its thread away, whoever else holds one.
-/

namespace DebugAgent

open Registration
open Relation (ReflTransGen)

/-- Number of obligations behind a notification. -/
def Agent.obligations (a : Agent) (key : NotificationKey) : Nat :=
  (a.requests.requests.countP fun request => request.registration.notification = key) +
    if key = (.vmDeath, none) ∧ a.session.isSome then 1 else 0

/-- Notifications are held for the obligations that there are. -/
def ObligationsMet (a : Agent) : Prop := NotificationsHeld a a.obligations

namespace NotificationsHeld

variable {a b : Agent} {n : NotificationKey → Nat}

/-- The notifications stay as they are, held and enabled. -/
theorem of_same (hn : NotificationsHeld a n) (hc : Carries a b)
    (htable : b.requests.notifications = a.requests.notifications)
    (henabled : b.vm.notifications = a.vm.notifications) :
    NotificationsHeld b n ∧ ∀ thread, StepsEnabled a thread → StepsEnabled b thread := by
  constructor
  · exact hc.notificationsHeld hn (fun q => htable ▸ hn.counted q)
      (fun hmem => ⟨henabled ▸ hmem, fun hheld _ => ⟨_, htable ▸ hheld⟩⟩)
      fun _ hmem => henabled ▸ hmem
  · exact fun _ hsteps => hc.stepsEnabled hn hsteps fun _ _ hmem => henabled ▸ hmem

/-- What counts are the numbers of obligations. -/
theorem met (hn : NotificationsHeld a n) (hsame : ∀ q, n q = a.obligations q) :
    ObligationsMet a := by
  have heq : n = a.obligations := funext hsame
  rw [ObligationsMet]
  rwa [← heq]

end NotificationsHeld

/-! ### Changes -/

section Change

variable {a b c : Agent}

theorem carries_of_enrol (ho : Orderly a) (object : HeapId) :
    NotificationsHeld.Carries a (a.enrol object) where
  capabilities := rfl
  threads := fun {thread} hthread => by
    have heq := Vm.threadAt?_setTagAt a.vm object a.tracker.nextId thread
    rwa [← heq] at hthread
  held := fun hheld => ⟨_, hheld, rfl⟩
  globals := fun _ _ hglobal => holdsGlobal_enrol ho.refs hglobal object

theorem carries_of_forget (hs : HoldsSoundly a) {id : ObjectId} {entry : Tracked}
    (hentry : a.tracker.entries.get? id = some entry) :
    NotificationsHeld.Carries a (Tracking.forget id entry a) where
  capabilities := (Vm.steady_deleteRef a.vm .globalRef entry.global).capabilities
  threads := (Vm.steady_deleteRef a.vm .globalRef entry.global).threads
  held := fun hheld => ⟨_, hheld, rfl⟩
  globals := by
    intro key held global thread hheld hthread hglobal
    refine hs.deleteGlobalRef (x := .identifier id) (y := .notification key) ?_ ?_ ?_ hglobal
    · simp [Agent.held?, Tracker.global?, hentry]
    · have hheld : a.requests.notifications.get? key = some held := hheld
      simp [Agent.held?, hheld, hthread]
    · simp

theorem obligations_remove (hsorted : a.requests.requests.Pairwise (·.id < ·.id))
    {request : Request} (hmem : request ∈ a.requests.requests)
    (hrequests : b.requests.requests = a.requests.requests.filter fun r => r.id ≠ request.id)
    (hsession : b.session = a.session) (key : NotificationKey) :
    a.obligations key =
      b.obligations key + if request.registration.notification = key then 1 else 0 := by
  have hcount := countP_remove hsorted hmem
    fun request => request.registration.notification = key
  rw [← hrequests] at hcount
  simp only [Agent.obligations, hsession]
  simp only [decide_eq_true_eq] at hcount
  calc
    a.requests.requests.countP (fun request => request.registration.notification = key) + _ =
        (b.requests.requests.countP (fun request => request.registration.notification = key) +
          if request.registration.notification = key then 1 else 0) + _ := by
      rw [hcount]
    _ = _ := Nat.add_right_comm _ _ _

theorem obligations_add {request : Request}
    (hrequests : b.requests.requests = a.requests.requests ++ [request])
    (hsession : b.session = a.session) (key : NotificationKey) :
    b.obligations key =
      a.obligations key + if request.registration.notification = key then 1 else 0 := by
  have hcount :
      b.requests.requests.countP (fun request => request.registration.notification = key) =
        a.requests.requests.countP (fun request => request.registration.notification = key) +
          if request.registration.notification = key then 1 else 0 := by
    rw [hrequests, List.countP_append, List.countP_singleton]
    simp only [decide_eq_true_eq]
  simp only [Agent.obligations, hsession]
  calc
    b.requests.requests.countP (fun request => request.registration.notification = key) + _ =
        (a.requests.requests.countP (fun request => request.registration.notification = key) +
          if request.registration.notification = key then 1 else 0) + _ := by
      rw [hcount]
    _ = _ := Nat.add_right_comm _ _ _

/-- A change carries the notifications on, and they still meet their obligations. -/
theorem ObligationsMet.change (hs : Sound a) (hmet : ObligationsMet a) (h : Change a b) :
    NotificationsHeld.Carries a b ∧ ObligationsMet b ∧
      ∀ thread, StepsEnabled a thread → KeysApart a thread → StepsEnabled b thread := by
  have hsame : ∀ {b}, NotificationsHeld.Carries a b →
      b.requests.notifications = a.requests.notifications →
      b.vm.notifications = a.vm.notifications → (∀ q, a.obligations q = b.obligations q) →
        NotificationsHeld.Carries a b ∧ ObligationsMet b ∧
          ∀ thread, StepsEnabled a thread → KeysApart a thread → StepsEnabled b thread := by
    intro b hcarries htable henabled hobligations
    obtain ⟨hheld, hsteps⟩ := hmet.of_same hcarries htable henabled
    exact ⟨hcarries, hheld.met hobligations, fun thread h _ => hsteps thread h⟩
  cases h with
  | machine hkeeps =>
      have hcarries := NotificationsHeld.carries_of_keeps (b := a.setVm _) hkeeps rfl
      exact hsame hcarries rfl hkeeps.notifications fun _ => rfl
  | recount =>
      exact hsame (NotificationsHeld.carries_of_eq rfl rfl rfl rfl) rfl rfl fun _ => rfl
  | enrol => exact hsame (carries_of_enrol hs.toOrderly _) rfl rfl fun _ => rfl
  | @forget id entry hentry =>
      have hsteady := Vm.steady_deleteRef a.vm .globalRef entry.global
      have hcarries := carries_of_forget hs.toHoldsSoundly hentry
      exact hsame hcarries rfl hsteady.notifications fun _ => rfl
  | advance kind ctx =>
      refine hsame (NotificationsHeld.carries_of_eq rfl rfl rfl rfl) rfl rfl fun q => ?_
      have hcount := @countP_advance a.requests.requests ctx
        (fun request => request.kind = kind && a.requestFires ctx request)
        fun registration => registration.notification = q
      exact congrArg (· + _) hcount.symm
  | session f =>
      refine hsame (NotificationsHeld.carries_of_eq rfl rfl rfl rfl) rfl rfl fun q => ?_
      simp [Agent.obligations]
  | @remove request released _ hmem hreleases hdisables =>
      obtain ⟨set, counts, rfl⟩ := hreleases.eq
      -- the request is gone from the table first, then its breakpoint and its notification
      let rest := ((a.dropRequest request.id).setVm
        ((a.dropRequest request.id).vm.putBreakpoints set)).putBreakpoints counts
      have hrest : NotificationsHeld.Carries a rest :=
        NotificationsHeld.carries_of_eq rfl rfl rfl rfl
      have hsound : HoldsSoundly rest :=
        hs.of_held fun hx => ⟨hx, fun _ hg => ⟨hg.isNull, hg.get?⟩⟩
      obtain ⟨hheld, hsteps⟩ := hmet.of_same hrest rfl rfl
      have hlast := NotificationsHeld.carries_of_disables hsound hdisables
      have hless : ∀ q, a.obligations q =
          b.obligations q + if request.registration.notification = q then 1 else 0 := by
        obtain ⟨thread, enabled, held, rfl⟩ := hdisables.eq
        exact obligations_remove hs.sorted hmem rfl rfl
      obtain ⟨hmet', hsteps'⟩ := hheld.disables hsound hdisables hless
      exact ⟨hrest.trans hlast, hmet', fun thread h hapart =>
        hsteps' thread (hsteps thread h) (hrest.keysApart hmet hapart)⟩

/-- A notification for one thread that is held afterwards was held before for this thread, or its
identifier designates the thread. -/
def Named (a b : Agent) : Prop :=
  ∀ {kind id held}, b.requests.notifications.get? (kind, some id) = some held →
    (∃ before, a.requests.notifications.get? (kind, some id) = some before ∧
      a.threadOf before = b.threadOf held) ∨ b.tracker.target? b.vm id = b.threadOf held

theorem NotificationsHeld.Carries.named {n : NotificationKey → Nat}
    (hc : NotificationsHeld.Carries a b) (hn : NotificationsHeld a n) : Named a b := by
  intro kind id held hheld
  obtain ⟨before, hbefore, -⟩ := hc.held hheld
  exact .inl ⟨before, hbefore, (hc.threadOf hn hheld hbefore).symm⟩

theorem named_of_enables {n : NotificationKey → Nat} {key : NotificationKey}
    (hs : HoldsSoundly a) (hn : NotificationsHeld a n) (henables : Enables a key b) :
    Named a b := by
  intro kind id held hheld
  cases henables with
  | @more found hfound =>
      simp only [Agent.putNotifications, Table.get?_insert] at hheld
      split at hheld
      · rename_i hq
        cases hheld
        exact .inl ⟨found, hq ▸ hfound, rfl⟩
      · exact .inl ⟨held, hheld, rfl⟩
  | @first vm thread target hnone hkeeps hfor hdemand =>
      simp only [Agent.putNotifications, Agent.setVm, Table.get?_insert] at hheld
      split at hheld
      · rename_i hq
        cases hheld
        subst hq
        cases hfor with
        | @one _ global object hdesignates hthread hglobal hnew =>
            obtain ⟨known, hknown, hold⟩ := hs.target?_eq_some.mp hdesignates
            right
            have hleft : a.tracker.target? vm id = some object := by
              simp [Tracker.target?, hknown, (hkeeps.globals hold).target?]
            exact hleft.trans hglobal.target?.symm
      · have hcarries : NotificationsHeld.Carries a (a.setVm vm) :=
          NotificationsHeld.carries_of_keeps hkeeps rfl
        exact .inl ⟨held, hheld, (hcarries.threadOf hn hheld hheld).symm⟩

/-- A notification enabled meets one obligation more, which is known by its key. -/
theorem ObligationsMet.enables (hs : HoldsSoundly a) (hmet : ObligationsMet a)
    {key : NotificationKey} (henables : Enables a key b)
    (htable : c.requests.notifications = b.requests.notifications) (hvm : c.vm = b.vm)
    (htracker : c.tracker = b.tracker)
    (hmore : ∀ q, c.obligations q = a.obligations q + if key = q then 1 else 0) :
    ObligationsMet c ∧ (∀ thread, StepsEnabled a thread → StepsEnabled c thread) ∧ Named a c := by
  obtain ⟨hheld, hsteps⟩ := NotificationsHeld.enables hmet henables hmore
  have hcarries : NotificationsHeld.Carries b c :=
    NotificationsHeld.carries_of_eq (by rw [hvm]) (by rw [hvm]) (by rw [hvm]) htable
  obtain ⟨hmet', hsteps'⟩ := hheld.of_same hcarries htable (by rw [hvm])
  refine ⟨hmet', fun thread h => hsteps' thread (hsteps thread h), fun {kind id held} hfound => ?_⟩
  have hthread : c.threadOf held = b.threadOf held := by rw [Agent.threadOf, Agent.threadOf, hvm]
  rw [hthread, hvm, htracker]
  exact named_of_enables hs hmet henables (htable ▸ hfound)

/-- An engagement adds the obligation that it takes on, and what it needs is enabled. -/
theorem ObligationsMet.engagement (hs : Sound a) (hmet : ObligationsMet a) (h : Engagement a b) :
    ObligationsMet b ∧ (∀ thread, StepsEnabled a thread → StepsEnabled b thread) ∧ Named a b := by
  cases h with
  | @request kind policy filters registration rest c hneeded hholds henables =>
      have hsound := hholds.holdsSoundly hs.toHoldsSoundly
      obtain ⟨set, counts, rfl⟩ := hholds.eq
      let rest := (a.setVm (a.vm.putBreakpoints set)).putBreakpoints counts
      have hrest : NotificationsHeld.Carries a rest :=
        NotificationsHeld.carries_of_eq rfl rfl rfl rfl
      obtain ⟨hheld, hsteps⟩ := hmet.of_same hrest rfl rfl
      have hmet' : ObligationsMet rest := hheld
      let last : Agent := { c with requests := c.requests.add kind policy filters registration }
      have hmore : ∀ q, last.obligations q =
          rest.obligations q + if registration.notification = q then 1 else 0 := by
        obtain ⟨vm, enabled, held, hkeeps, rfl⟩ := henables.eq
        exact obligations_add (a := rest) (b := last) rfl rfl
      obtain ⟨hadded, hsteps', hnamed⟩ :=
        hmet'.enables hsound henables (c := last) rfl rfl rfl hmore
      exact ⟨hadded, fun thread h => hsteps' thread (hsteps thread h), hnamed⟩
  | session hnone henables =>
      refine hmet.enables hs.toHoldsSoundly henables rfl rfl rfl fun q => ?_
      obtain ⟨vm, enabled, held, hkeeps, rfl⟩ := henables.eq
      simp [Agent.obligations, hnone, Agent.putNotifications, Agent.setVm, eq_comm]

end Change

/-! ### Runs -/

section Run

variable {a b : Agent}

theorem evolves_met (hs : Sound a) (hmet : ObligationsMet a) (h : Evolves a b) :
    (Sound b ∧ ObligationsMet b) ∧ NotificationsHeld.Carries a b ∧
      ∀ thread, StepsEnabled a thread → KeysApart a thread → StepsEnabled b thread := by
  induction h with
  | refl => exact ⟨⟨hs, hmet⟩, NotificationsHeld.carries_of_eq rfl rfl rfl rfl, fun _ h _ => h⟩
  | tail _ hstep ih =>
      obtain ⟨⟨hsound, hmet'⟩, hcarries, hsteps⟩ := ih
      obtain ⟨hcarries', hlast, hsteps'⟩ := hmet'.change hsound hstep.change
      exact ⟨⟨hsound.change hstep.change, hlast⟩, hcarries.trans hcarries', fun thread h hapart =>
        hsteps' thread (hsteps thread h hapart) (hcarries.keysApart hmet hapart)⟩

/-- What an operation does to the notifications held. -/
theorem leads_met (hs : Sound a) (hmet : ObligationsMet a) (h : Leads a b) :
    (Sound b ∧ ObligationsMet b) ∧ Named a b ∧
      ∀ thread, StepsEnabled a thread → KeysApart a thread → StepsEnabled b thread := by
  rcases h with hevolves | ⟨c, hevolves, hlast, -⟩
  · obtain ⟨hb, hcarries, hsteps⟩ := evolves_met hs hmet hevolves
    exact ⟨hb, hcarries.named hmet, hsteps⟩
  · obtain ⟨⟨hsound, hmet'⟩, hcarries, hsteps⟩ := evolves_met hs hmet hevolves
    obtain ⟨hadded, hsteps', hnamed⟩ := hmet'.engagement hsound hlast
    refine ⟨⟨hsound.engagement hlast, hadded⟩, fun {kind id held} hheld => ?_, fun thread h hapart =>
      hsteps' thread (hsteps thread h hapart)⟩
    rcases hnamed hheld with ⟨found, hfound, hthread⟩ | hdesignates
    · obtain ⟨before, hbefore, -⟩ := hcarries.held hfound
      exact .inl ⟨before, hbefore, (hcarries.threadOf hmet hfound hbefore).symm.trans hthread⟩
    · exact .inr hdesignates

theorem ObligationsMet.run (hs : Sound a) (hmet : ObligationsMet a) (ops : List Op) :
    ObligationsMet (a.run ops) :=
  (hs.invariant (fun hsound h hb => (hb.change hsound h).2.1)
    (fun hsound h hb => (hb.engagement hsound h).1) hmet (unfolds_run hs.toOrderly ops)).2

/-- Every notification for one thread was held from the start, or at some moment its identifier
designated the thread. -/
theorem named_run (hs : Sound a) (hmet : ObligationsMet a) (ops : List Op) {kind : CallbackKind}
    {id : ObjectId} {held : Notification}
    (hheld : (a.run ops).requests.notifications.get? (kind, some id) = some held) :
    (∃ before, a.requests.notifications.get? (kind, some id) = some before ∧
      a.threadOf before = (a.run ops).threadOf held) ∨
      ∃ past, past <+: ops ∧
        (a.run past).tracker.target? (a.run past).vm id = (a.run ops).threadOf held := by
  induction ops generalizing a with
  | nil => exact .inl ⟨held, hheld, rfl⟩
  | cons op ops ih =>
      obtain ⟨⟨hsound, hmet'⟩, hnamed, -⟩ := leads_met hs hmet (leads_apply op hs.toOrderly)
      rcases ih hsound hmet' hheld with ⟨found, hfound, hthread⟩ | ⟨past, hpast, hdesignates⟩
      · rcases hnamed hfound with ⟨before, hbefore, hsame⟩ | hdesignates
        · exact .inl ⟨before, hbefore, hsame.trans hthread⟩
        · exact .inr ⟨[op], ⟨ops, rfl⟩, hdesignates.trans hthread⟩
      · exact .inr ⟨op :: past, List.prefix_cons_inj op |>.mpr hpast, hdesignates⟩

/-- As long as the keys of a thread are apart, what is held for it is enabled. -/
theorem stepsEnabled_run {thread : HeapId} (hs : Sound a) (hmet : ObligationsMet a)
    (hsteps : StepsEnabled a thread) (ops : List Op)
    (hapart : ∀ past, past <+: ops → KeysApart (a.run past) thread) :
    StepsEnabled (a.run ops) thread := by
  induction ops generalizing a with
  | nil => exact hsteps
  | cons op ops ih =>
      obtain ⟨⟨hsound, hmet'⟩, -, hkept⟩ := leads_met hs hmet (leads_apply op hs.toOrderly)
      have hnear : StepsEnabled (a.apply op) thread :=
        hkept thread hsteps (hapart [] List.nil_prefix)
      refine ih hsound hmet' hnear fun past hpast => ?_
      exact hapart (op :: past) (List.prefix_cons_inj op |>.mpr hpast)

/-- An agent starts without obligations. -/
theorem met_start (steps : List Vm.Setup) (config : Config) :
    ObligationsMet (Agent.start (Vm.built steps) config) := by
  have hnone : (Vm.built steps).notifications = [] := (Vm.keeps_built steps).notifications
  constructor
  · intro key
    have hzero : (Agent.start (Vm.built steps) config).obligations key = 0 := by
      simp [Agent.obligations, Agent.start]
    rw [hzero]
    rfl
  · exact fun hheld => by cases hheld
  · exact fun hheld => by cases hheld
  · exact fun hheld => by cases hheld
  · intro kind thread hmem
    have hmem : (kind, thread) ∈ (Vm.built steps).notifications := hmem
    rw [hnone] at hmem
    cases hmem
  · exact fun hheld => by cases hheld

end Run

end DebugAgent
