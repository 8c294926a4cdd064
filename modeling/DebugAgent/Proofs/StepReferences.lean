import DebugAgent.Proofs.Requests
import DebugAgent.Proofs.Turns
import DebugAgent.Proofs.Undone

/-!
# References held for steps

A notification for one thread keeps the thread alive by a global reference of its own.  Only steps
need such a notification.  So requests for steps are the only ones whose setting and clearing changes
which global references there are, and even these leave alone every reference that no notification
holds.
-/

namespace DebugAgent

open DebugAgent.Action Command Registration

variable {a b c : Agent} {steps : Prop}

/-! ### References that no notification holds -/

/-- A valid global reference to the object that no notification holds. -/
def Agent.Unclaimed (a : Agent) (raw : Nat) (object : HeapId) : Prop :=
  a.vm.refs.get? raw = some ⟨object, .globalRef⟩ ∧
    ∀ key, a.held? (.notification key) ≠ some ⟨raw⟩

theorem Agent.unclaimed_iff (a : Agent) (key : NotificationKey) {raw : Nat} {object : HeapId} :
    a.Unclaimed raw object ↔
      (a.vm.refs.get? raw = some ⟨object, .globalRef⟩ ∧ a.held? (.notification key) ≠ some ⟨raw⟩) ∧
        ∀ other, other ≠ key → a.held? (.notification other) ≠ some ⟨raw⟩ := by
  rw [and_assoc]
  refine and_congr_right fun _ => ⟨fun hall => ⟨hall key, fun other _ => hall other⟩, ?_⟩
  rintro ⟨hkey, hothers⟩ other
  by_cases hsame : other = key
  · rwa [hsame]
  · exact hothers other hsame

/-- Global references come and go for notifications at most, and only if steps are concerned. -/
structure ClaimsOnly (steps : Prop) (a b : Agent) : Prop where
  unclaimed : ∀ raw object, a.Unclaimed raw object ↔ b.Unclaimed raw object
  globals : ¬ steps → a.vm.SameGlobals b.vm

namespace ClaimsOnly

theorem refl (a : Agent) : ClaimsOnly steps a a := ⟨fun _ _ => .rfl, fun _ _ _ => .rfl⟩

theorem trans (h : ClaimsOnly steps a b) (h' : ClaimsOnly steps b c) : ClaimsOnly steps a c where
  unclaimed := fun raw object => (h.unclaimed raw object).trans (h'.unclaimed raw object)
  globals := fun hno raw object => (h.globals hno raw object).trans (h'.globals hno raw object)

theorem mono {more : Prop} (h : ClaimsOnly steps a b) (hmore : steps → more) :
    ClaimsOnly more a b :=
  ⟨h.unclaimed, fun hno => h.globals fun hsteps => hno (hmore hsteps)⟩

/-- What one notification holds is all that changes. -/
theorem of_key (key : NotificationKey)
    (hkey : ∀ raw object,
      a.vm.refs.get? raw = some ⟨object, .globalRef⟩ ∧ a.held? (.notification key) ≠ some ⟨raw⟩ ↔
        b.vm.refs.get? raw = some ⟨object, .globalRef⟩ ∧ b.held? (.notification key) ≠ some ⟨raw⟩)
    (hothers : ∀ other, other ≠ key →
      b.held? (.notification other) = a.held? (.notification other))
    (hglobals : ¬ steps → a.vm.SameGlobals b.vm) : ClaimsOnly steps a b where
  unclaimed := by
    intro raw object
    rw [Agent.unclaimed_iff a key, Agent.unclaimed_iff b key, hkey]
    refine and_congr_right fun _ => forall₂_congr fun other hne => ?_
    rw [hothers other hne]
  globals := hglobals

/-- The global references are the same, and so are those that notifications hold. -/
theorem of_same (hglobals : a.vm.SameGlobals b.vm)
    (hheld : ∀ key, b.held? (.notification key) = a.held? (.notification key)) :
    ClaimsOnly steps a b where
  unclaimed := fun raw object => by
    simp only [Agent.Unclaimed, hheld]
    exact and_congr_left fun _ => hglobals raw object
  globals := fun _ => hglobals

end ClaimsOnly

theorem Unmoved.claimsOnly (h : Unmoved a b) (hpos : a.vm.RefsPositive) : ClaimsOnly steps a b :=
  .of_same (h.conserves.sameGlobals hpos) fun _ =>
    congrFun (held?_congr h.tracker (congrArg RequestTable.notifications h.requests)) _

/-! ### Breakpoints and notifications -/

/-- A notification for all threads holds no reference. -/
def ClaimsForOne (a : Agent) : Prop := ∀ kind, a.held? (.notification (kind, none)) = none

namespace Registration

theorem Holds.claimsOnly {position : Option (MethodId × CodeIndex)} (hholds : Holds a position b) :
    ClaimsOnly steps a b := by
  obtain ⟨set, counts, rfl⟩ := hholds.eq
  exact .of_same (fun _ _ => .rfl) fun _ => rfl

theorem Releases.claimsOnly {position : Option (MethodId × CodeIndex)}
    (hreleases : Releases a position b) : ClaimsOnly steps a b := by
  obtain ⟨set, counts, rfl⟩ := hreleases.eq
  exact .of_same (fun _ _ => .rfl) fun _ => rfl

/-- The global references that are left when the reference of a notification is gone. -/
theorem global_freed (thread : Option Handle) (vm : Vm) (raw : Nat) (object : HeapId) :
    (freed thread vm).refs.get? raw = some ⟨object, .globalRef⟩ ↔
      vm.refs.get? raw = some ⟨object, .globalRef⟩ ∧ thread ≠ some ⟨raw⟩ := by
  cases thread with
  | none => simp [freed]
  | some global =>
      rw [freed, Vm.global_deleteGlobalRef]
      refine and_congr_right fun _ => not_congr ⟨fun hraw => hraw ▸ rfl, fun heq => ?_⟩
      cases heq
      rfl

/-- What notifications hold after one of them has got its entry. -/
theorem heldFor_insert (a : Agent) (key : NotificationKey) (held : Notification)
    (other : NotificationKey) :
    (a.putNotifications (a.requests.notifications.insert key held)).held? (.notification other) =
      if other = key then held.thread else a.held? (.notification other) := by
  simp only [held?_putNotifications_insert, Holder.notification.injEq]

/-- What notifications hold after one of them has lost its entry. -/
theorem heldFor_erase (a : Agent) (key other : NotificationKey) :
    (a.putNotifications (a.requests.notifications.erase key)).held? (.notification other) =
      if other = key then none else a.held? (.notification other) := by
  simp only [held?_putNotifications_erase, Holder.notification.injEq]

/-- The notification holds the reference that has been made for it. -/
theorem claimsOnly_first {key : NotificationKey} {vm : Vm} {thread : Option Handle}
    {target : Option HeapId} {enabled : List (CallbackKind × Option HeapId)}
    (hpos : a.vm.RefsPositive) (hnone : a.requests.notifications.get? key = none)
    (hheld : HeldFor a vm key.2 thread target) (hfreed : a.vm.Conserves (freed thread vm)) :
    ClaimsOnly (key.2 ≠ none) a ((a.setVm (vm.putNotifications enabled)).putNotifications
      (a.requests.notifications.insert key ⟨1, thread⟩)) := by
  have hheldThen := heldFor_insert (a.setVm (vm.putNotifications enabled)) key ⟨1, thread⟩
  have hbefore : a.held? (.notification key) = none := by simp [Agent.held?, hnone]
  have hafter := (hheldThen key).trans (if_pos rfl)
  have hsame := hfreed.sameGlobals hpos
  refine .of_key key (fun raw object => ?_) (fun other hne => (hheldThen other).trans (if_neg hne))
    fun hno => ?_
  · rw [hbefore]
    refine (and_iff_left (Option.some_ne_none _).symm).trans ((hsame raw object).trans ?_)
    rw [global_freed]
    exact and_congr_right fun _ => not_congr (Eq.congr_left hafter.symm)
  · obtain ⟨rfl, -⟩ := hheld.forAll (of_not_not hno)
    exact hsame

theorem Enables.claimsOnly {key : NotificationKey} (henables : Enables a key b)
    (hpos : a.vm.RefsPositive) : ClaimsOnly (key.2 ≠ none) a b := by
  cases henables with
  | more hheld => exact .of_same (fun _ _ => .rfl) fun _ => congrFun (held?_recounted hheld _) _
  | first hnone hkeeps hheld hdemand hfreed => exact claimsOnly_first hpos hnone hheld hfreed

/-- A notification that is given up takes its reference with it. -/
theorem claimsOnly_last {key : NotificationKey} {held : Notification} (hone : ClaimsForOne a)
    (hheld : a.requests.notifications.get? key = some held) {vm : Vm} (hrefs : vm.refs = a.vm.refs) :
    ClaimsOnly (key.2 ≠ none) a ((a.setVm (freed held.thread vm)).putNotifications
      (a.requests.notifications.erase key)) := by
  have hheldThen := heldFor_erase (a.setVm (freed held.thread vm)) key
  have hbefore : a.held? (.notification key) = held.thread := by simp [Agent.held?, hheld]
  have hafter := (hheldThen key).trans (if_pos rfl)
  have hleft : ∀ raw object, (freed held.thread vm).refs.get? raw = some ⟨object, .globalRef⟩ ↔
      a.vm.refs.get? raw = some ⟨object, .globalRef⟩ ∧ held.thread ≠ some ⟨raw⟩ := by
    rw [← hrefs]
    exact global_freed held.thread vm
  refine .of_key key (fun raw object => ?_) (fun other hne => (hheldThen other).trans (if_neg hne))
    fun hno raw object => ?_
  · rw [hbefore]
    refine (hleft raw object).symm.trans (and_iff_left ?_).symm
    exact fun heq => (Option.some_ne_none _).symm (hafter.symm.trans heq)
  · obtain ⟨kind, id⟩ := key
    obtain rfl : id = none := of_not_not hno
    refine (and_iff_left ?_).symm.trans (hleft raw object).symm
    rw [← hbefore, hone kind]
    exact (Option.some_ne_none _).symm

theorem Disables.claimsOnly {key : NotificationKey} (hdisables : Disables a key b)
    (hone : ClaimsForOne a) : ClaimsOnly (key.2 ≠ none) a b := by
  cases hdisables with
  | unknown => exact .refl a
  | fewer hheld => exact .of_same (fun _ _ => .rfl) fun _ => congrFun (held?_recounted hheld _) _
  | last hheld | stuck hheld => exact claimsOnly_last hone hheld rfl

theorem Enables.claimsForOne {key : NotificationKey} (henables : Enables a key b)
    (hone : ClaimsForOne a) : ClaimsForOne b := by
  intro kind
  cases henables with
  | more hheld => exact (congrFun (held?_recounted hheld _) _).trans (hone kind)
  | @first vm thread target hnone hkeeps hfor hdemand =>
      refine (heldFor_insert (a.setVm (vm.enableFor key.1 target)) key ⟨1, thread⟩ _).trans ?_
      split
      · rename_i hsame
        exact (hfor.forAll (congrArg Prod.snd hsame).symm).1
      · exact hone kind

theorem Disables.claimsForOne {key : NotificationKey} (hdisables : Disables a key b)
    (hone : ClaimsForOne a) : ClaimsForOne b := by
  intro kind
  have herased : ∀ vm, ((a.setVm vm).putNotifications (a.requests.notifications.erase key)).held?
      (.notification (kind, none)) = none := by
    intro vm
    refine (heldFor_erase (a.setVm vm) key _).trans ?_
    split
    · rfl
    · exact hone kind
  cases hdisables with
  | unknown => exact hone kind
  | fewer hheld => exact (congrFun (held?_recounted hheld _) _).trans (hone kind)
  | last | stuck => exact herased _

end Registration

namespace ClaimsForOne

theorem change (hone : ClaimsForOne a) (h : Change a b) : ClaimsForOne b := by
  cases h with
  | machine | recount | enrol | forget | advance | session => exact hone
  | remove hmem hreleases hdisables =>
      obtain ⟨set, counts, rfl⟩ := hreleases.eq
      exact hdisables.claimsForOne hone

theorem engagement (hone : ClaimsForOne a) (h : Engagement a b) : ClaimsForOne b := by
  cases h with
  | request hneeded hholds henables =>
      obtain ⟨set, counts, rfl⟩ := hholds.eq
      exact henables.claimsForOne hone
  | session hnone henables => exact henables.claimsForOne hone

end ClaimsForOne

/-! ### Setting and clearing requests -/

/-- What the account of global references rests on: the agent's books are in order, no valid reference
is null, and notifications hold references only as far as the requests need it. -/
structure Accountable (a : Agent) : Prop extends Orderly a where
  positive : a.vm.RefsPositive
  needs : NeedsKept a
  claims : ClaimsForOne a

theorem Unmoved.accountable (h : Unmoved a b) (ha : Accountable a) : Accountable b where
  toOrderly := h.orderly ha.toOrderly
  positive := h.conserves.toAges.positive ha.positive
  needs := fun request hmem => ha.needs request (h.requests ▸ hmem)
  claims := fun kind => by
    rw [held?_congr h.tracker (congrArg RequestTable.notifications h.requests)]
    exact ha.claims kind

theorem Past.accountable (past : Past) : Accountable past.agent := by
  have hbooks : NeedsKept past.agent ∧ ClaimsForOne past.agent := by
    refine past.invariant (P := fun a => NeedsKept a ∧ ClaimsForOne a)
      (fun _ _ => ⟨?_, fun _ => rfl⟩) (fun _ _ h => h) fun a op ho h => ?_
    · intro request hmem
      cases hmem
    · refine (unfolds_invariant (P := fun a => NeedsKept a ∧ ClaimsForOne a)
        (fun _ _ _ hchange h => ?_) (fun _ _ _ hlast h => ?_) ho h (leads_apply op ho).unfolds).2
      · exact ⟨h.1.change hchange, h.2.change hchange⟩
      · exact ⟨h.1.engagement hlast, h.2.engagement hlast⟩
  exact ⟨past.inOrder.toOrderly, past.refsPositive, hbooks.1, hbooks.2⟩

/-- A command exchanges global references with notifications at most, and only if it is for steps. -/
def Claims (steps : Prop) (x : Command α) : Prop :=
  ∀ a, Accountable a → ClaimsOnly steps a (x.perform a).2

namespace Claims

variable {α β : Type}

/-- What comes first does nothing that would matter. -/
theorem after {x : Command α} {f : α → Command β} (hx : ∀ a, Orderly a → Unmoved a (x.perform a).2)
    (hf : ∀ r, Claims steps (f r)) : Claims steps (x >>= f) := by
  intro a ha
  have hfirst := hx a ha.toOrderly
  rw [perform_bind]
  cases hperform : x.perform a with
  | mk result b =>
      rw [hperform] at hfirst
      cases result with
      | ok r => exact (hfirst.claimsOnly ha.positive).trans (hf r b (hfirst.accountable ha))
      | error stop => exact hfirst.claimsOnly ha.positive

theorem answer {x : Command α} (hx : Claims steps x) (ha : Accountable a) (caller : NativeThread) :
    ClaimsOnly steps a (answer caller x a).2 := by
  rw [answer_snd]
  exact after (fun a ho => (Looks.attach trivial caller).unmoved ho (keepsIds_attach caller a))
    (fun _ => hx) a ha

theorem map (f : α → β) {x : Command α} (hx : Claims steps x) : Claims steps (f <$> x) := by
  intro a ha
  rw [perform_map]
  exact hx a ha

theorem done {x : Command Unit} (hx : Claims steps x) : Claims steps (Command.done x) :=
  hx.map fun _ => Reply.done

end Claims

namespace Registration

theorem claims_register (kind : EventKind) (policy : SuspendPolicy)
    (modifiers : List EventModifier) :
    Claims (kind = .singleStep) (register kind policy modifiers) := by
  refine .after (fun a ho => (looks_guard _ _).unmoved ho (keepsIds_guard _ _ a)) fun _ => ?_
  have hfilters : KeepsIds (modifiers.mapM (filterOf kind)) :=
    keepsIds_mapM (keepsIds_filterOf kind) modifiers
  refine .after (fun a ho =>
    (looks_mapM (looks_filterOf kind) modifiers).unmoved ho (hfilters a)) fun filters => ?_
  intro a ha
  cases hneeded : needed kind filters with
  | error e =>
      simp only [perform_bind, Action.ofExcept, perform_inspect, mapError_error]
      exact .refl a
  | ok registration =>
      rcases acquire_cases registration ha.refs ha.counts with
        ⟨cause, vm, hconserves, hacquire⟩ | ⟨b, c, hholds, henables, -, hacquire⟩
      · simp only [perform_bind, Action.ofExcept, perform_inspect, mapError_ok, hacquire]
        exact (Unmoved.setVm hconserves).claimsOnly ha.positive
      · simp only [perform_bind, Action.ofExcept, perform_inspect, mapError_ok, hacquire,
          perform_look, perform_change, perform_pure]
        have hsteps : registration.notification.2 ≠ none → kind = .singleStep := by
          rcases (notification_of_needed hneeded).2 with ⟨-, hnone⟩ | ⟨id, hkind, -⟩
          · exact fun hsome => absurd hnone hsome
          · exact fun _ => hkind
        have hnear : ClaimsOnly (kind = .singleStep) a b := hholds.claimsOnly
        have hlast := (henables.claimsOnly (hholds.ages.positive ha.positive)).mono hsteps
        exact (hnear.trans hlast).trans (.of_same (fun _ _ => .rfl) fun _ => rfl)

/-- A request is removed, and what its notification held goes with it. -/
theorem claimsOnly_remove (request : Request) (hcounts : CountsPositive a) (hone : ClaimsForOne a) :
    ∃ b, ClaimsOnly (request.registration.notification.2 ≠ none) a b ∧ CountsPositive b ∧
      ClaimsForOne b ∧ (remove request).perform a = (.ok (), b) := by
  obtain ⟨b, c, hreleases, hdisables, hremove⟩ := remove_releases request hcounts
  have hdropped : ClaimsOnly (request.registration.notification.2 ≠ none) a
      (a.dropRequest request.id) := .of_same (fun _ _ => .rfl) fun _ => rfl
  have hone' : ClaimsForOne b := by
    obtain ⟨set, counts, rfl⟩ := hreleases.eq
    exact hone
  have hcounts' : CountsPositive c := by
    have hreleased : CountsPositive b := hreleases.countsPositive hcounts
    obtain ⟨thread, enabled, held, rfl⟩ := hdisables.eq
    exact hreleased
  refine ⟨c, (hdropped.trans hreleases.claimsOnly).trans (hdisables.claimsOnly hone'), hcounts',
    hdisables.claimsForOne hone', hremove⟩

theorem claims_clear (kind : EventKind) (id : RequestId) :
    Claims (kind = .singleStep) (clear kind id) := by
  intro a ha
  cases hfind : a.requests.find? id with
  | none =>
      simp only [clear, perform_bind, perform_look, hfind, perform_refuse]
      exact .refl a
  | some request =>
      by_cases hkind : request.kind = kind
      · obtain ⟨b, hclaims, -, -, hremove⟩ := claimsOnly_remove request ha.counts ha.claims
        have hneeded := ha.needs request (List.mem_of_find?_eq_some hfind)
        have hsteps : request.registration.notification.2 ≠ none → kind = .singleStep := by
          rcases (notification_of_needed hneeded).2 with ⟨-, hnone⟩ | ⟨id, hstep, -⟩
          · exact fun hsome => absurd hnone hsome
          · exact fun _ => hkind ▸ hstep
        have hclear : ((clear kind id).perform a).2 = b := by
          simp [clear, perform_bind, hfind, hkind, hremove]
        rw [hclear]
        exact hclaims.mono hsteps
      · have hclear : ((clear kind id).perform a).2 = a := by
          simp [clear, perform_bind, hfind, hkind]
        rw [hclear]
        exact .refl a

theorem claims_clearBreakpoints : Claims False clearBreakpoints := by
  have hall : ∀ (requests : List Request) {a : Agent}, CountsPositive a → ClaimsForOne a →
      (∀ request ∈ requests, request.registration.notification.2 = none) →
      ClaimsOnly False a ((requests.forM remove : Command Unit).perform a).2 := by
    intro requests
    induction requests with
    | nil => exact fun {a} _ _ _ => .refl a
    | cons request requests ih =>
        intro a hcounts hone hnone
        obtain ⟨hfirst, hrest⟩ := List.forall_mem_cons.mp hnone
        obtain ⟨b, hclaims, hcounts', hone', hremove⟩ := claimsOnly_remove request hcounts hone
        have hlater : ((request :: requests).forM remove : Command Unit).perform a =
            (requests.forM remove : Command Unit).perform b := perform_bind_of_ok hremove _
        rw [hlater]
        exact (hclaims.mono fun hsome => hsome hfirst).trans (ih hcounts' hone' hrest)
  intro a ha
  refine hall (a.requests.ofKind .breakpoint) ha.counts ha.claims fun request hmem => ?_
  obtain ⟨hmem, hkind⟩ := List.mem_filter.mp hmem
  rcases (notification_of_needed (ha.needs request hmem)).2 with ⟨-, hnone⟩ | ⟨id, hstep, -⟩
  · exact hnone
  · cases (of_decide_eq_true hkind).symm.trans hstep

/-- The session needs a notification that is for all threads. -/
theorem claims_opening (canDeliver : Bool) : Claims False (Agent.opening canDeliver) := by
  intro a ha
  rcases opening_cases canDeliver ha.refs with
    ⟨cause, vm, hconserves, hopening⟩ | ⟨-, b, henables, -, hopening⟩
  · rw [hopening]
    exact (Unmoved.setVm hconserves).claimsOnly ha.positive
  · rw [hopening]
    have henabled : ClaimsOnly False a b := (henables.claimsOnly ha.positive).mono fun hone => hone rfl
    exact henabled.trans (.of_same (fun _ _ => .rfl) fun _ => rfl)

end Registration

/-- The command sets a request for steps, or it clears one. -/
def ClientCommand.forSteps : ClientCommand → Bool
  | .setEvent kindCode _ _ | .clearEvent kindCode _ => kindCode = EventKind.singleStep.code
  | _ => false

namespace Command

/-- The kind of event is named by its code. -/
theorem claims_ofCode {α : Type} (kindCode : Nat) {f : EventKind → Command α}
    (hf : ∀ kind, Claims (kind = .singleStep) (f kind)) :
    Claims (kindCode = EventKind.singleStep.code)
      (Action.ofExcept (EventKind.ofCode kindCode) >>= f) := by
  intro a ha
  cases hkind : EventKind.ofCode kindCode with
  | error cause =>
      simp only [perform_bind, Action.ofExcept, perform_inspect, mapError_error]
      exact .refl a
  | ok kind =>
      simp only [perform_bind, Action.ofExcept, perform_inspect, mapError_ok]
      exact (hf kind a ha).mono fun hstep => hstep ▸ (EventKind.code_of_ofCode hkind).symm

theorem claims_set (kindCode : Nat) (policy : SuspendPolicy) (modifiers : List EventModifier) :
    Claims (kindCode = EventKind.singleStep.code) (EventRequest.set kindCode policy modifiers) :=
  claims_ofCode kindCode fun kind => claims_register kind policy modifiers

theorem claims_clearEvent (kindCode : Nat) (id : RequestId) :
    Claims (kindCode = EventKind.singleStep.code) (EventRequest.clear kindCode id) :=
  claims_ofCode kindCode fun kind => claims_clear kind id

/-- A command that does more than look, and gives no identifiers back, sets or clears requests. -/
theorem claims_ofClient (caller : NativeThread) {command : ClientCommand}
    (hkeeps : ∀ requests, command ≠ .disposeObjects requests) (hmore : command.onlyLooks = false) :
    Claims (command.forSteps = true) (ofClient caller command) := by
  have hcode : ∀ {kindCode : Nat}, kindCode = EventKind.singleStep.code →
      decide (kindCode = EventKind.singleStep.code) = true := decide_eq_true
  cases command with
  | disposeObjects requests => exact absurd rfl (hkeeps requests)
  | setEvent kindCode policy modifiers =>
      exact .map _ fun a ha => (claims_set kindCode policy modifiers a ha).mono hcode
  | clearEvent kindCode request =>
      exact .done fun a ha => (claims_clearEvent kindCode request a ha).mono hcode
  | setBreakpoint location policy =>
      exact .map _ fun a ha =>
        (claims_set _ policy [.locationOnly location] a ha).mono fun heq => by cases heq
  | clearBreakpoint request =>
      exact .done fun a ha => (claims_clearEvent _ request a ha).mono fun heq => by cases heq
  | clearAllBreakpoints => exact .done fun a ha => (claims_clearBreakpoints a ha).mono False.elim
  | _ => cases hmore

end Command

end DebugAgent
