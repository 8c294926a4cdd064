import DebugAgent.Proofs.Identity
import DebugAgent.Proofs.Requests

/-!
# Shared notifications

Requests for the same kind of event share one notification of the machine, and step requests share
it if they name their thread by the same identifier.  The machine, though, knows threads and no
identifiers.  An object that was given back and tracked again has a new identifier, so two step
requests may be set on one thread under two identifiers.  The agent then holds two notifications
where the machine knows one, and the first that is given up takes it away from the other.
-/

namespace DebugAgent

open Registration

/-- The thread that a notification is held for, as long as its reference is good. -/
def Agent.threadOf (a : Agent) (held : Notification) : Option HeapId :=
  held.thread.bind a.vm.target?

/-- The notifications held, with the number of obligations behind each of them. -/
structure NotificationsHeld (a : Agent) (obligations : NotificationKey → Nat) : Prop where
  counted : ∀ key, (a.requests.notifications.get? key).map Notification.count =
    if obligations key = 0 then none else some (obligations key)
  demanded : ∀ {key held}, a.requests.notifications.get? key = some held →
    a.vm.demandFor key.1 = .ok ()
  forAll : ∀ {kind held}, a.requests.notifications.get? (kind, none) = some held →
    held.thread = none
  forOne : ∀ {kind id held}, a.requests.notifications.get? (kind, some id) = some held →
    ∃ global thread, held.thread = some global ∧ a.vm.HoldsGlobal global thread ∧
      (a.vm.threadAt? thread).isSome
  /-- What is enabled is held. -/
  enabled : ∀ {kind thread}, (kind, thread) ∈ a.vm.notifications →
    ∃ id held, a.requests.notifications.get? (kind, id) = some held ∧ a.threadOf held = thread
  /-- What is held for all threads is enabled. -/
  all : ∀ {kind held}, a.requests.notifications.get? (kind, none) = some held →
    (kind, none) ∈ a.vm.notifications

/-- What is held for the thread is enabled for it. -/
def StepsEnabled (a : Agent) (thread : HeapId) : Prop :=
  ∀ ⦃kind id held⦄, a.requests.notifications.get? (kind, some id) = some held →
    a.threadOf held = some thread → (kind, some thread) ∈ a.vm.notifications

/-- The thread does not have notifications under two identifiers. -/
def KeysApart (a : Agent) (thread : HeapId) : Prop :=
  ∀ ⦃kind id id' held held'⦄, a.requests.notifications.get? (kind, some id) = some held →
    a.requests.notifications.get? (kind, some id') = some held' →
      a.threadOf held = some thread → a.threadOf held' = some thread → id = id'

theorem Registration.HeldFor.threadOf {a : Agent} {vm : Vm} {id : Option ObjectId}
    {thread : Option Handle} {target : Option HeapId} (hfor : HeldFor a vm id thread target)
    {count : Nat} : (a.setVm vm).threadOf ⟨count, thread⟩ = target := by
  cases hfor with
  | all => rfl
  | one hdesignates hthread hglobal hnew => exact hglobal.target?

namespace NotificationsHeld

variable {a b : Agent} {n m : NotificationKey → Nat} {thread : HeapId}

theorem threadOf_eq_none (hn : NotificationsHeld a n) {kind : CallbackKind} {held : Notification}
    (hheld : a.requests.notifications.get? (kind, none) = some held) : a.threadOf held = none := by
  simp [Agent.threadOf, hn.forAll hheld]

theorem threadOf_eq_some (hn : NotificationsHeld a n) {kind : CallbackKind} {id : ObjectId}
    {held : Notification} (hheld : a.requests.notifications.get? (kind, some id) = some held) :
    ∃ thread, a.threadOf held = some thread := by
  obtain ⟨global, thread, hthread, hglobal, -⟩ := hn.forOne hheld
  exact ⟨thread, by simp [Agent.threadOf, hthread, hglobal.target?]⟩

/-- What is held for a thread holds a reference to it. -/
theorem global_of_threadOf (hn : NotificationsHeld a n) {kind : CallbackKind} {id : ObjectId}
    {held : Notification} (hheld : a.requests.notifications.get? (kind, some id) = some held)
    (htarget : a.threadOf held = some thread) :
    ∃ global, held.thread = some global ∧ a.vm.HoldsGlobal global thread ∧
      (a.vm.threadAt? thread).isSome := by
  obtain ⟨global, found, hthread, hglobal, hisThread⟩ := hn.forOne hheld
  rw [Agent.threadOf, hthread, Option.bind_some, hglobal.target?] at htarget
  obtain rfl := Option.some.inj htarget
  exact ⟨global, hthread, hglobal, hisThread⟩

/-- The machine finds the thread of every notification held. -/
theorem notifiedThread (hn : NotificationsHeld a n) {key : NotificationKey} {held : Notification}
    (hheld : a.requests.notifications.get? key = some held) :
    a.vm.notifiedThread held.thread = .ok (a.threadOf held) := by
  obtain ⟨kind, id⟩ := key
  cases id with
  | none => simp [Agent.threadOf, hn.forAll hheld, Vm.notifiedThread]
  | some id =>
      obtain ⟨global, thread, hthread, hglobal, hisThread⟩ := hn.forOne hheld
      simp [Agent.threadOf, hthread, Vm.notifiedThread, hglobal.target?, hisThread]

/-- A change of the machine that keeps the threads of the notifications held, and the notifications
themselves. -/
structure Carries (a b : Agent) : Prop where
  capabilities : b.vm.capabilities = a.vm.capabilities
  threads : ∀ {thread}, (a.vm.threadAt? thread).isSome → (b.vm.threadAt? thread).isSome
  /-- What is held was held before, for the same thread. -/
  held : ∀ {key held}, b.requests.notifications.get? key = some held →
    ∃ before, a.requests.notifications.get? key = some before ∧ before.thread = held.thread
  globals : ∀ {key held global thread}, b.requests.notifications.get? key = some held →
    held.thread = some global → a.vm.HoldsGlobal global thread → b.vm.HoldsGlobal global thread

namespace Carries

theorem trans {c : Agent} (hc : Carries a b) (hc' : Carries b c) : Carries a c where
  capabilities := hc'.capabilities.trans hc.capabilities
  threads := fun hthread => hc'.threads (hc.threads hthread)
  held := by
    intro key held hheld
    obtain ⟨before, hbefore, hsame⟩ := hc'.held hheld
    obtain ⟨first, hfirst, heq⟩ := hc.held hbefore
    exact ⟨first, hfirst, heq.trans hsame⟩
  globals := by
    intro key held global thread hheld hthread hglobal
    obtain ⟨before, hbefore, hsame⟩ := hc'.held hheld
    exact hc'.globals hheld hthread (hc.globals hbefore (hsame.trans hthread) hglobal)

theorem threadOf (hc : Carries a b) (hn : NotificationsHeld a n) {key : NotificationKey}
    {held before : Notification} (hheld : b.requests.notifications.get? key = some held)
    (hbefore : a.requests.notifications.get? key = some before) :
    b.threadOf held = a.threadOf before := by
  obtain ⟨found, hfound, hsame⟩ := hc.held hheld
  cases hfound.symm.trans hbefore
  obtain ⟨kind, id⟩ := key
  cases id with
  | none =>
      have hthread := hn.forAll hbefore
      simp [Agent.threadOf, ← hsame, hthread]
  | some id =>
      obtain ⟨global, thread, hthread, hglobal, -⟩ := hn.forOne hbefore
      have hglobal' := hc.globals hheld (hsame ▸ hthread) hglobal
      simp [Agent.threadOf, ← hsame, hthread, hglobal.target?, hglobal'.target?]

/-- The facts about single notifications carry over. -/
theorem notificationsHeld (hc : Carries a b) (hn : NotificationsHeld a n)
    (hcounted : ∀ key, (b.requests.notifications.get? key).map Notification.count =
      if m key = 0 then none else some (m key))
    (henabled : ∀ {kind thread}, (kind, thread) ∈ b.vm.notifications →
      (kind, thread) ∈ a.vm.notifications ∧ ∀ {id held},
        a.requests.notifications.get? (kind, id) = some held → a.threadOf held = thread →
          ∃ kept, b.requests.notifications.get? (kind, id) = some kept)
    (hall : ∀ {kind held}, b.requests.notifications.get? (kind, none) = some held →
      (kind, none) ∈ a.vm.notifications → (kind, none) ∈ b.vm.notifications) :
    NotificationsHeld b m where
  counted := hcounted
  demanded := by
    intro key held hheld
    obtain ⟨before, hbefore, -⟩ := hc.held hheld
    have hdemand := hn.demanded hbefore
    unfold Vm.demandFor Vm.demand Vm.grants at hdemand ⊢
    rwa [hc.capabilities]
  forAll := by
    intro kind held hheld
    obtain ⟨before, hbefore, hsame⟩ := hc.held hheld
    exact hsame ▸ hn.forAll hbefore
  forOne := by
    intro kind id held hheld
    obtain ⟨before, hbefore, hsame⟩ := hc.held hheld
    obtain ⟨global, thread, hthread, hglobal, hisThread⟩ := hn.forOne hbefore
    have hthread : held.thread = some global := hsame ▸ hthread
    exact ⟨global, thread, hthread, hc.globals hheld hthread hglobal, hc.threads hisThread⟩
  enabled := by
    intro kind thread hmem
    obtain ⟨hold, hkept⟩ := henabled hmem
    obtain ⟨id, before, hbefore, hthread⟩ := hn.enabled hold
    obtain ⟨held, hheld⟩ := hkept hbefore hthread
    exact ⟨id, held, hheld, (hc.threadOf hn hheld hbefore).trans hthread⟩
  all := by
    intro kind held hheld
    obtain ⟨before, hbefore, -⟩ := hc.held hheld
    exact hall hheld (hn.all hbefore)

theorem keysApart (hc : Carries a b) (hn : NotificationsHeld a n) (hapart : KeysApart a thread) :
    KeysApart b thread := by
  intro kind id id' held held' hheld hheld' hthread hthread'
  obtain ⟨before, hbefore, -⟩ := hc.held hheld
  obtain ⟨before', hbefore', -⟩ := hc.held hheld'
  rw [hc.threadOf hn hheld hbefore] at hthread
  rw [hc.threadOf hn hheld' hbefore'] at hthread'
  exact hapart hbefore hbefore' hthread hthread'

theorem stepsEnabled (hc : Carries a b) (hn : NotificationsHeld a n)
    (hsteps : StepsEnabled a thread)
    (hkept : ∀ {kind id held}, b.requests.notifications.get? (kind, some id) = some held →
      b.threadOf held = some thread → (kind, some thread) ∈ a.vm.notifications →
        (kind, some thread) ∈ b.vm.notifications) : StepsEnabled b thread := by
  intro kind id held hheld hthread
  obtain ⟨before, hbefore, -⟩ := hc.held hheld
  refine hkept hheld hthread (hsteps hbefore ?_)
  rwa [← hc.threadOf hn hheld hbefore]

end Carries

/-! ### Giving up a notification -/

theorem carries_of_disables (hs : HoldsSoundly a) {key : NotificationKey}
    (hdisables : Disables a key b) : Carries a b := by
  have hglobals : ∀ {key held global thread}, b.requests.notifications.get? key = some held →
      held.thread = some global → a.vm.HoldsGlobal global thread →
        b.vm.HoldsGlobal global thread := by
    intro q held global thread hheld hthread hglobal
    have hx : b.held? (.notification q) = some global := by simp [Agent.held?, hheld, hthread]
    exact (hdisables.held hs hx).2 thread hglobal
  have herased : ∀ {q held}, (a.requests.notifications.erase key).get? q = some held →
      ∃ before, a.requests.notifications.get? q = some before ∧ before.thread = held.thread := by
    intro q held hheld
    exact ⟨held, (Table.get?_erase_eq_some.mp hheld).2, rfl⟩
  cases hdisables with
  | unknown hnone => exact ⟨rfl, fun h => h, fun hheld => ⟨_, hheld, rfl⟩, hglobals⟩
  | @fewer before hbefore hcount =>
      refine ⟨rfl, fun h => h, fun {q held} hheld => ?_, hglobals⟩
      have hheld : (a.requests.notifications.insert key
        { before with count := before.count - 1 }).get? q = some held := hheld
      rw [Table.get?_insert] at hheld
      split at hheld
      · rename_i hq
        cases hheld
        exact ⟨before, hq ▸ hbefore, rfl⟩
      · exact ⟨held, hheld, rfl⟩
  | @last before target hbefore hcount hdemand htarget =>
      have hsteady := steady_freed before.thread (a.vm.disableFor key.1 target)
      exact ⟨hsteady.capabilities, hsteady.threads, herased, hglobals⟩
  | @stuck before hbefore hcount hrefused =>
      have hsteady := steady_freed before.thread a.vm
      exact ⟨hsteady.capabilities, hsteady.threads, herased, hglobals⟩

/-- The notifications that are enabled after one is given up. -/
theorem notifications_of_disables (hn : NotificationsHeld a n) {key : NotificationKey}
    {before : Notification} (hbefore : a.requests.notifications.get? key = some before)
    (hdisables : Disables a key b) :
    (1 < before.count ∧ b.vm.notifications = a.vm.notifications ∧
      b.requests.notifications =
        a.requests.notifications.insert key { before with count := before.count - 1 }) ∨
      before.count ≤ 1 ∧
        b.vm.notifications =
          a.vm.notifications.filter (fun e => e ≠ (key.1, a.threadOf before)) ∧
        b.requests.notifications = a.requests.notifications.erase key := by
  have htarget := hn.notifiedThread hbefore
  cases hdisables with
  | unknown hnone => cases hnone.symm.trans hbefore
  | @fewer held hheld hcount =>
      cases hheld.symm.trans hbefore
      exact .inl ⟨hcount, rfl, rfl⟩
  | @last held target hheld hcount hdemand hfound =>
      cases hheld.symm.trans hbefore
      cases hfound.symm.trans htarget
      have hsteady := steady_freed before.thread (a.vm.disableFor key.1 (a.threadOf before))
      exact .inr ⟨hcount, hsteady.notifications, rfl⟩
  | @stuck held hheld hcount hrefused =>
      cases hheld.symm.trans hbefore
      exact absurd htarget (hrefused _ (hn.demanded hbefore))

/-- One obligation less behind a notification that is still needed. -/
theorem fewer (hn : NotificationsHeld a n) (hc : Carries a b) {key : NotificationKey}
    {before : Notification} (hbefore : a.requests.notifications.get? key = some before)
    (hmore : 1 < before.count) (henabled : b.vm.notifications = a.vm.notifications)
    (htable : b.requests.notifications =
      a.requests.notifications.insert key { before with count := before.count - 1 })
    (hless : ∀ q, n q = m q + if key = q then 1 else 0) :
    NotificationsHeld b m ∧ ∀ thread, StepsEnabled a thread → StepsEnabled b thread := by
  have hlookup : ∀ q, b.requests.notifications.get? q = if q = key then
      some { before with count := before.count - 1 } else a.requests.notifications.get? q := by
    intro q
    rw [htable, Table.get?_insert]
  constructor
  · refine hc.notificationsHeld hn (fun q => ?_) ?_ fun _ hmem => henabled ▸ hmem
    · rw [hlookup]
      split
      · rename_i hq
        have hcounted := hn.counted key
        have hself := hless key
        rw [hbefore] at hcounted
        grind
      · rename_i hq
        rw [hn.counted, hless, if_neg (Ne.symm hq)]
        rfl
    · refine fun hmem => ⟨henabled ▸ hmem, fun {id held} hheld _ => ?_⟩
      rw [hlookup]
      split
      · exact ⟨_, rfl⟩
      · exact ⟨held, hheld⟩
  · exact fun _ hsteps => hc.stepsEnabled hn hsteps fun _ _ hmem => henabled ▸ hmem

/-- A notification that is not needed any longer is disabled, and if no other one is for the same
thread this is all that happens. -/
theorem last (hn : NotificationsHeld a n) (hc : Carries a b) {key : NotificationKey}
    {before : Notification} (hbefore : a.requests.notifications.get? key = some before)
    (hone : before.count ≤ 1)
    (henabled : b.vm.notifications =
      a.vm.notifications.filter (fun e => e ≠ (key.1, a.threadOf before)))
    (htable : b.requests.notifications = a.requests.notifications.erase key)
    (hless : ∀ q, n q = m q + if key = q then 1 else 0) :
    NotificationsHeld b m ∧
      ∀ thread, StepsEnabled a thread → KeysApart a thread → StepsEnabled b thread := by
  have hgone : ∀ {q held}, b.requests.notifications.get? q = some held →
      q ≠ key ∧ a.requests.notifications.get? q = some held := by
    intro q held hheld
    rw [htable] at hheld
    exact Table.get?_erase_eq_some.mp hheld
  -- what is enabled for another thread or kind stays enabled
  have hstays : ∀ {kind thread}, (kind, thread) ≠ (key.1, a.threadOf before) →
      (kind, thread) ∈ a.vm.notifications → (kind, thread) ∈ b.vm.notifications := by
    intro kind thread hne hmem
    rw [henabled]
    exact List.mem_filter.mpr ⟨hmem, decide_eq_true hne⟩
  constructor
  · refine hc.notificationsHeld hn (fun q => ?_) (fun {kind thread} hmem => ?_) ?_
    · rw [htable, Table.get?_erase]
      split
      · rename_i hq
        have hcounted := hn.counted key
        have hself := hless key
        rw [hbefore] at hcounted
        grind
      · rename_i hq
        rw [hn.counted, hless, if_neg (Ne.symm hq)]
        rfl
    · rw [henabled] at hmem
      obtain ⟨hmem, hne⟩ := List.mem_filter.mp hmem
      refine ⟨hmem, fun {id held} hheld hthread => ?_⟩
      have hq : (kind, id) ≠ key := by
        rintro rfl
        cases hheld.symm.trans hbefore
        simp [hthread] at hne
      exact ⟨held, by rw [htable, Table.get?_erase_of_ne hq, hheld]⟩
    · intro kind held hheld hmem
      refine hstays (fun heq => ?_) hmem
      obtain ⟨hkind, hnone⟩ := Prod.mk.inj heq
      obtain ⟨kind', id⟩ := key
      cases id with
      | none => exact (hgone hheld).1 (by rw [hkind])
      | some id =>
          obtain ⟨thread, hthread⟩ := hn.threadOf_eq_some hbefore
          rw [hthread] at hnone
          cases hnone
  · intro thread hsteps hapart
    refine hc.stepsEnabled hn hsteps fun {kind id held} hheld hthread hmem => ?_
    refine hstays (fun heq => ?_) hmem
    obtain ⟨hkind, hsome⟩ := Prod.mk.inj heq
    obtain ⟨hq, hold⟩ := hgone hheld
    have hthread : a.threadOf held = some thread := by
      rwa [← hc.threadOf hn hheld hold]
    obtain ⟨kind', id'⟩ := key
    cases id' with
    | none =>
        rw [hn.threadOf_eq_none hbefore] at hsome
        cases hsome
    | some id' =>
        have hkind : kind = kind' := hkind
        subst hkind
        have hid := hapart hold hbefore hthread hsome.symm
        exact hq (by rw [hid])

theorem disables (hn : NotificationsHeld a n) (hs : HoldsSoundly a) {key : NotificationKey}
    (hdisables : Disables a key b) (hless : ∀ q, n q = m q + if key = q then 1 else 0) :
    NotificationsHeld b m ∧
      ∀ thread, StepsEnabled a thread → KeysApart a thread → StepsEnabled b thread := by
  have hcarries := carries_of_disables hs hdisables
  obtain ⟨before, hbefore⟩ : ∃ before, a.requests.notifications.get? key = some before := by
    have hcounted := hn.counted key
    have hself : n key = m key + 1 := by simpa using hless key
    rw [hself, if_neg (Nat.succ_ne_zero _)] at hcounted
    obtain ⟨before, hbefore, -⟩ := Option.map_eq_some_iff.mp hcounted
    exact ⟨before, hbefore⟩
  rcases notifications_of_disables hn hbefore hdisables with
    ⟨hmore, henabled, htable⟩ | ⟨hone, henabled, htable⟩
  · obtain ⟨hheld, hsteps⟩ := hn.fewer hcarries hbefore hmore henabled htable hless
    exact ⟨hheld, fun thread h _ => hsteps thread h⟩
  · exact hn.last hcarries hbefore hone henabled htable hless

/-! ### Holding one more -/

/-- Objects, references and the table of notifications stay as they are. -/
theorem carries_of_eq (hcapabilities : b.vm.capabilities = a.vm.capabilities)
    (hheap : b.vm.heap = a.vm.heap) (hrefs : b.vm.refs = a.vm.refs)
    (htable : b.requests.notifications = a.requests.notifications) : Carries a b where
  capabilities := hcapabilities
  threads := fun {thread} hthread => by rwa [Vm.threadAt?_eq, hheap, ← Vm.threadAt?_eq]
  held := fun hheld => ⟨_, htable ▸ hheld, rfl⟩
  globals := fun _ _ hglobal => ⟨hglobal.isNull, hrefs ▸ hglobal.get?⟩

theorem carries_of_keeps (hkeeps : a.vm.Keeps b.vm)
    (htable : b.requests.notifications = a.requests.notifications) : Carries a b where
  capabilities := hkeeps.capabilities
  threads := hkeeps.threads
  held := fun hheld => ⟨_, htable ▸ hheld, rfl⟩
  globals := fun _ _ hglobal => hkeeps.globals hglobal

theorem mem_enableFor {vm : Vm} {kind k : CallbackKind} {target t : Option HeapId} :
    (k, t) ∈ (vm.enableFor kind target).notifications ↔
      (k, t) ∈ vm.notifications ∨ (k, t) = (kind, target) := by
  simp only [Vm.enableFor, Vm.putNotifications]
  split
  · rename_i henabled
    have hmem : (kind, target) ∈ vm.notifications := by simpa [Vm.isEnabled] using henabled
    exact ⟨.inl, fun h => h.elim id fun heq => heq ▸ hmem⟩
  · rw [List.mem_append, List.mem_singleton]

/-- A notification is held again for the thread that it is held for. -/
theorem enables_more (hn : NotificationsHeld a n) {key : NotificationKey} {held : Notification}
    (hheld : a.requests.notifications.get? key = some held)
    (hmore : ∀ q, m q = n q + if key = q then 1 else 0) :
    let b := a.putNotifications
      (a.requests.notifications.insert key { held with count := held.count + 1 })
    NotificationsHeld b m ∧ ∀ thread, StepsEnabled a thread → StepsEnabled b thread := by
  intro b
  have hlookup : ∀ q, b.requests.notifications.get? q = if q = key then
      some { held with count := held.count + 1 } else a.requests.notifications.get? q :=
    Table.get?_insert _ _ _
  have hcarries : Carries a b := by
    refine ⟨rfl, fun h => h, fun {q found} hfound => ?_, fun _ _ hglobal => hglobal⟩
    rw [hlookup] at hfound
    split at hfound
    · rename_i hq
      cases hfound
      exact ⟨held, hq ▸ hheld, rfl⟩
    · exact ⟨found, hfound, rfl⟩
  have hsteps : ∀ thread, StepsEnabled a thread → StepsEnabled b thread :=
    fun _ hsteps => hcarries.stepsEnabled hn hsteps fun _ _ hmem => hmem
  refine ⟨hcarries.notificationsHeld hn (fun q => ?_)
    (fun hmem => ⟨hmem, fun {id found} hfound _ => ?_⟩) (fun _ hmem => hmem), hsteps⟩
  · have hcounted := hn.counted key
    rw [hlookup]
    split
    · rename_i hq
      rw [hheld] at hcounted
      have hself := hmore key
      grind
    · rename_i hq
      rw [hn.counted, hmore, if_neg (Ne.symm hq)]
      rfl
  · rw [hlookup]
    split
    · exact ⟨_, rfl⟩
    · exact ⟨found, hfound⟩

/-- A notification that is held for the first time is enabled. -/
theorem enables_first (hn : NotificationsHeld a n) {key : NotificationKey} {vm : Vm}
    {thread : Option Handle} {target : Option HeapId}
    (hnone : a.requests.notifications.get? key = none) (hkeeps : a.vm.Keeps vm)
    (hfor : HeldFor a vm key.2 thread target) (hdemand : a.vm.demandFor key.1 = .ok ())
    (hmore : ∀ q, m q = n q + if key = q then 1 else 0) :
    let b := (a.setVm (vm.enableFor key.1 target)).putNotifications
      (a.requests.notifications.insert key ⟨1, thread⟩)
    NotificationsHeld b m ∧ ∀ thread, StepsEnabled a thread → StepsEnabled b thread := by
  intro b
  have hlookup : ∀ q, b.requests.notifications.get? q = if q = key then
      some ⟨1, thread⟩ else a.requests.notifications.get? q := Table.get?_insert _ _ _
  have hmem : ∀ {k t}, (k, t) ∈ b.vm.notifications ↔ (k, t) ∈ vm.notifications ∨
      (k, t) = (key.1, target) := mem_enableFor
  have htarget : b.threadOf ⟨1, thread⟩ = target := hfor.threadOf
  have hcarries : Carries a (a.setVm vm) := carries_of_keeps hkeeps rfl
  have hkept : NotificationsHeld (a.setVm vm) n :=
    hcarries.notificationsHeld hn hn.counted
      (fun hmem => ⟨hkeeps.notifications ▸ hmem, fun hheld _ => ⟨_, hheld⟩⟩)
      (fun _ hmem => hkeeps.notifications.symm ▸ hmem)
  constructor
  · constructor
    · intro q
      rw [hlookup]
      split
      · rename_i hq
        have hcounted := hn.counted key
        have hself := hmore key
        rw [hnone] at hcounted
        grind
      · rename_i hq
        rw [hn.counted, hmore, if_neg (Ne.symm hq)]
        rfl
    · intro q held hheld
      rw [hlookup] at hheld
      split at hheld
      · rename_i hq
        rw [hq]
        exact (Vm.demandFor_of_keeps hkeeps key.1).trans hdemand
      · exact hkept.demanded hheld
    · intro kind held hheld
      rw [hlookup] at hheld
      split at hheld
      · rename_i hq
        cases hheld
        exact (hfor.forAll (by rw [← hq])).1
      · exact hkept.forAll hheld
    · intro kind id held hheld
      rw [hlookup] at hheld
      split at hheld
      · rename_i hq
        cases hheld
        obtain ⟨global, object, hthread, hglobal, hisThread⟩ := hfor.forOne hkeeps (by rw [← hq])
        exact ⟨global, object, hthread, ⟨hglobal.isNull, hglobal.get?⟩, hisThread⟩
      · obtain ⟨global, object, hthread, hglobal, hisThread⟩ := hkept.forOne hheld
        exact ⟨global, object, hthread, ⟨hglobal.isNull, hglobal.get?⟩, hisThread⟩
    · intro kind t hnotified
      rcases hmem.mp hnotified with hold | hnew
      · obtain ⟨id, held, hheld, hthread⟩ := hkept.enabled hold
        have hne : (kind, id) ≠ key := fun hq => by
          have hheld : a.requests.notifications.get? (kind, id) = some held := hheld
          rw [hq, hnone] at hheld
          cases hheld
        exact ⟨id, held, by rw [hlookup, if_neg hne]; exact hheld, hthread⟩
      · obtain ⟨rfl, rfl⟩ := Prod.mk.inj hnew
        exact ⟨key.2, ⟨1, thread⟩, by rw [hlookup]; simp, htarget⟩
    · intro kind held hheld
      rw [hlookup] at hheld
      apply hmem.mpr
      split at hheld
      · rename_i hq
        rw [← hq, (hfor.forAll (by rw [← hq])).2]
        exact .inr rfl
      · exact .inl (hkept.all hheld)
  · intro object hsteps kind id held hheld hthread
    apply hmem.mpr
    rw [hlookup] at hheld
    split at hheld
    · rename_i hq
      cases hheld
      rw [← hq, ← htarget, hthread]
      exact .inr rfl
    · left
      rw [hkeeps.notifications]
      exact hsteps hheld ((hcarries.threadOf hn hheld hheld).symm.trans hthread)

theorem enables (hn : NotificationsHeld a n) {key : NotificationKey}
    (henables : Enables a key b) (hmore : ∀ q, m q = n q + if key = q then 1 else 0) :
    NotificationsHeld b m ∧ ∀ thread, StepsEnabled a thread → StepsEnabled b thread := by
  cases henables with
  | more hheld => exact enables_more hn hheld hmore
  | first hnone hkeeps hfor hdemand => exact enables_first hn hnone hkeeps hfor hdemand hmore

end NotificationsHeld

end DebugAgent
