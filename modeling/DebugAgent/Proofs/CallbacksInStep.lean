import DebugAgent.Proofs.CommandsInStep
import DebugAgent.Proofs.Past
import DebugAgent.Proofs.Session

/-!
# Callbacks in step

Filters in another order are tested in another order, and the first one that does not accept ends
the test, so a callback may use up more references in one machine than in the other.  After that the
references of the two machines are paired anew: those that are in use stand for each other as they
did, and the next ones are taken to stand for each other from here on.  Apart from that, agents in
step process a callback alike: the same requests fire and the same ones expire.
-/

namespace DebugAgent

open DebugAgent.Action Command

variable {p p' : Pairing} {a b : Agent} {h k : Handle}

/-! ### Pairing anew -/

namespace Pairing

/-- The pairing that goes on after both machines have used up numbers past the given ones. -/
def resumed (p : Pairing) {last last' : Nat} (hlimit : p.limit ≤ last ∧ p.limit ≤ last')
    (used used' : Nat) : Pairing where
  stands h k := (p.stands h k ∧ h.raw ≤ last ∧ k.raw ≤ last') ∨
    ∃ n, 0 < n ∧ h = ⟨last + used + n⟩ ∧ k = ⟨last' + used' + n⟩
  limit := p.limit
  old hh := .inl ⟨p.old hh, Nat.le_trans hh hlimit.1, Nat.le_trans hh hlimit.2⟩
  -- what was paired before has a number up to the last one, what is new has a later one
  unique := by
    rintro h k k' (⟨hk, hle, -⟩ | ⟨n, hn, rfl, rfl⟩) (⟨hk', hle', -⟩ | ⟨m, hm, hh, rfl⟩)
    · exact p.unique hk hk'
    · rw [hh] at hle
      dsimp only at hle
      omega
    · dsimp only at hle'
      omega
    · have hsame : n = m := Nat.add_left_cancel (congrArg Handle.raw hh)
      rw [hsame]
  unique' := by
    rintro h h' k (⟨hk, -, hle⟩ | ⟨n, hn, rfl, rfl⟩) (⟨hk', -, hle'⟩ | ⟨m, hm, rfl, hh⟩)
    · exact p.unique' hk hk'
    · rw [hh] at hle
      dsimp only at hle
      omega
    · dsimp only at hle'
      omega
    · have hsame : n = m := Nat.add_left_cancel (congrArg Handle.raw hh)
      rw [hsame]

/-- A pairing keeps together what another one has paired so far. -/
structure Continues (p' p : Pairing) (vm vm' : Vm) : Prop where
  limit : p'.limit = p.limit
  stands : ∀ {h k}, Vm.Known p vm vm' h k → p'.stands h k

theorem Continues.refl (p : Pairing) (vm vm' : Vm) : p.Continues p vm vm' :=
  ⟨rfl, fun hk => hk.stands⟩

/-- What has been paired earlier is kept together as well. -/
theorem Continues.ages {vm vm' near near' : Vm} (hc : p'.Continues p near near')
    (ha : vm.Ages near) (ha' : vm'.Ages near') : p'.Continues p vm vm' :=
  ⟨hc.limit, fun hk => hc.stands (hk.ages ha ha')⟩

end Pairing

/-- The machines after they have used up reference numbers, not as many in both. -/
theorem Vm.Paired.spend {vm vm' : Vm} (hv : vm.Paired p vm') (hb : vm.RefsBounded)
    (hb' : vm'.RefsBounded) (used used' : Nat) :
    (vm.spend used).Paired (p.resumed hv.limit used used') (vm'.spend used') where
  world := by
    obtain ⟨refs, lastRef, rfl⟩ := hv.world
    exact ⟨refs, lastRef + used', rfl⟩
  refs := by
    have hunused : ∀ {vm : Vm}, vm.RefsBounded → ∀ count n, 0 < n →
        vm.refs.get? (vm.lastRef + count + n) = none := by
      intro vm hb count n hn
      refine Option.eq_none_iff_forall_ne_some.mpr fun ref href => ?_
      have hle := hb _ _ href
      omega
    rintro h k (⟨hk, -, -⟩ | ⟨n, hn, rfl, rfl⟩)
    · exact hv.refs hk
    · exact (hunused hb' used' n hn).trans (hunused hb used n hn).symm
  ahead hn := .inr ⟨_, hn, rfl, rfl⟩
  limit := ⟨Nat.le_trans hv.limit.1 (Nat.le_add_right _ _),
    Nat.le_trans hv.limit.2 (Nat.le_add_right _ _)⟩

/-! ### References that the agent holds -/

section Held

variable {x : Holder} {key : NotificationKey}

theorem Registration.Disables.held_before (h : Disables a key b) (hx : b.held? x = some k) :
    a.held? x = some k := by
  cases h with
  | unknown => exact hx
  | fewer hheld => exact (congrFun (held?_recounted hheld _) x).symm.trans hx
  | last | stuck =>
      have hx := (held?_putNotifications_erase a x).symm.trans hx
      split at hx
      · cases hx
      · exact hx

theorem Registration.Enables.held_before_or_made (h : Enables a key b) (hb : a.vm.RefsBounded)
    (hx : b.held? x = some k) : a.held? x = some k ∨ k.raw ≤ b.vm.lastRef := by
  cases h with
  | more hheld => exact .inl ((congrFun (held?_recounted hheld _) x).symm.trans hx)
  | first hnone hkeeps hheld =>
      have hkept := (held?_putNotifications_insert a x).symm.trans hx
      split at hkept
      · obtain ⟨kind, id⟩ := key
        cases hheld with
        | all => cases hkept
        | one hdesignates hthread hglobal =>
            cases Option.some.inj hkept
            exact .inr (hkeeps.toAges.bounded hb _ _ hglobal.get?)
      · exact .inl hkept

theorem held_before_or_made_of_change (h : Change a b) (hx : b.held? x = some k) :
    a.held? x = some k ∨ k.raw ≤ b.vm.lastRef := by
  cases h with
  | machine | advance | session => exact .inl hx
  | recount hentry => exact .inl ((held?_setReferences hentry _ x).symm.trans hx)
  | enrol =>
      rw [held?_enrol] at hx
      split at hx
      · cases hx
        exact .inr (Nat.le_refl _)
      · exact .inl hx
  | forget =>
      rw [held?_forget] at hx
      split at hx
      · cases hx
      · exact .inl hx
  | remove _ hreleases hdisables =>
      obtain ⟨set, counts, rfl⟩ := hreleases.eq
      exact .inl (hdisables.held_before hx)

theorem held_before_or_made_of_engagement (hb : a.vm.RefsBounded) (h : Engagement a b)
    (hx : b.held? x = some k) : a.held? x = some k ∨ k.raw ≤ b.vm.lastRef := by
  cases h with
  | request _ hholds henables =>
      obtain ⟨set, counts, rfl⟩ := hholds.eq
      exact henables.held_before_or_made hb hx
  | session _ henables => exact henables.held_before_or_made hb hx

end Held

/-- The agent's books are in order, and every reference that it holds has been made. -/
structure Sturdy (a : Agent) : Prop extends Orderly a where
  held : ∀ {x h}, a.held? x = some h → h.raw ≤ a.vm.lastRef

namespace Sturdy

theorem start {vm : Vm} (hb : vm.RefsBounded) (config : Config) :
    Sturdy (Agent.start vm config) :=
  ⟨orderly_start hb config, fun {x h} hx => by cases x <;> cases hx⟩

theorem later (ha : Sturdy a) (hb : Orderly b) (hages : a.vm.Ages b.vm)
    (hheld : ∀ {x h}, b.held? x = some h → a.held? x = some h ∨ h.raw ≤ b.vm.lastRef) :
    Sturdy b :=
  ⟨hb, fun hx => (hheld hx).elim (fun hx => Nat.le_trans (ha.held hx) hages.lastRef_le) id⟩

theorem unfolds (h : Sturdy a) (hu : Unfolds a b) : Sturdy b :=
  (unfolds_invariant (P := Sturdy)
    (fun _ _ ho hchange hs => hs.later (ho.change hchange) hchange.ages
      (held_before_or_made_of_change hchange))
    (fun _ _ ho hengagement hs => hs.later (ho.engagement hengagement) hengagement.ages
      (held_before_or_made_of_engagement hs.refs hengagement)) h.toOrderly h hu).2

theorem apply (h : Sturdy a) (op : Op) : Sturdy (a.apply op) :=
  h.unfolds (leads_apply op h.toOrderly).unfolds

theorem ages_apply (h : Sturdy a) (op : Op) : a.vm.Ages (a.apply op).vm :=
  h.toOrderly.ages_unfolds (leads_apply op h.toOrderly).unfolds

theorem setVm (h : Sturdy a) {vm : Vm} (hages : a.vm.Ages vm) : Sturdy (a.setVm vm) :=
  h.later ⟨hages.bounded h.refs, h.counts, h.sorted, h.fresh⟩ hages .inl

theorem undergo (h : Sturdy a) (incident : Incident) : Sturdy (a.undergo incident) := by
  have hages := h.toOrderly.ages_undergo incident
  cases incident with
  | op op => exact h.apply op
  | restart config => exact .start h.refs config
  | interfere | makeRef | deleteRef => exact h.setVm hages

/-- What looks leave the books in order, and references grow old. -/
theorem looks (h : Sturdy a) {α : Type} {x : Command α} (hx : Looks Control.Any x) :
    Sturdy (x.perform a).2 ∧ a.vm.Ages (x.perform a).2.vm :=
  have hevolves := hx.evolves h.toOrderly
  ⟨h.unfolds hevolves.unfolds, ages_of_evolves hevolves⟩

theorem global_le (h : Sturdy a) {id : ObjectId} {entry : Tracked}
    (hentry : a.tracker.entries.get? id = some entry) : entry.global.raw ≤ a.vm.lastRef := by
  refine h.held (x := .identifier id) ?_
  rw [Agent.held?, Tracker.global?, hentry, Option.map_some]

theorem thread_le (h : Sturdy a) {key : NotificationKey} {held : Notification}
    (hheld : a.requests.notifications.get? key = some held) (hthread : held.thread = some k) :
    k.raw ≤ a.vm.lastRef := by
  refine h.held (x := .notification key) ?_
  rw [Agent.held?, hheld, Option.bind_some, hthread]

end Sturdy

theorem Past.sturdy (past : Past) : Sturdy past.agent := by
  have hincidents : ∀ (incidents : List Incident) {a : Agent}, Sturdy a →
      Sturdy (incidents.foldl Agent.undergo a) := by
    intro incidents
    induction incidents with
    | nil => exact fun h => h
    | cons incident incidents ih => exact fun h => ih (h.undergo incident)
  exact hincidents past.incidents (.start (Vm.bounded_built past.steps) past.config)

namespace Agent.Paired

/-- Agents stay in step when they use up references, though not as many. -/
theorem spend (hp : a.Paired p b) (ha : Sturdy a) (hb : Sturdy b) (used used' : Nat) :
    (a.spend used).Paired (p.resumed hp.vm.limit used used') (b.spend used') where
  vm := hp.vm.spend ha.refs hb.refs used used'
  config := hp.config
  session := hp.session
  tracker := by
    refine ⟨hp.tracker.nextId, hp.tracker.entries.imp fun hentry hentry' he => ?_⟩
    exact ⟨.inl ⟨he.global, ha.global_le hentry, hb.global_le hentry'⟩, he.references⟩
  requests := by
    refine ⟨hp.requests.nextId, hp.requests.requests, hp.requests.breakpoints, ?_⟩
    refine hp.requests.notifications.imp fun hheld hheld' hn => ⟨hn.count, ?_⟩
    refine rel_imp hn.thread fun hthread hthread' hk => ?_
    exact .inl ⟨hk, ha.thread_le hheld hthread, hb.thread_le hheld' hthread'⟩

/-- The pairing anew keeps together what has been paired. -/
theorem continues_resumed (hp : a.Paired p b) (used used' : Nat) :
    (p.resumed hp.vm.limit used used').Continues p a.vm b.vm :=
  ⟨rfl, fun hk => .inl ⟨hk.stands, hk.le, hk.le'⟩⟩

/-! ### Which requests fire -/

theorem target? (hp : a.Paired p b) (id : ObjectId) :
    b.tracker.target? b.vm id = a.tracker.target? a.vm id := by
  have hglobal := hp.tracker.global? id
  rw [Tracker.target?, Tracker.target?]
  generalize a.tracker.global? id = global at hglobal
  generalize b.tracker.global? id = global' at hglobal
  cases hglobal with
  | none => rfl
  | some hk => exact hp.vm.target? hk

theorem isKindOf (hp : a.Paired p b) (refType : ObjectId) (cls : Option HeapId) :
    Filter.isKindOf b.vm b.tracker refType cls = Filter.isKindOf a.vm a.tracker refType cls := by
  have hassignable : b.vm.assignable = a.vm.assignable := by
    funext sub sup
    exact Vm.assignable_congr hp.vm.heap sub sup
  simp only [Filter.isKindOf, hp.target?, hassignable]

theorem accepts (hp : a.Paired p b) (ctx : Context) {thread thread' : Option Handle}
    (ht : Option.Rel p.stands thread thread') (filter : Filter) :
    filter.accepts b.vm b.tracker ctx thread' = filter.accepts a.vm a.tracker ctx thread := by
  cases filter with
  | step state =>
      cases ht with
      | none => rfl
      | some hk => simp only [Filter.accepts, Option.any_some, hp.vm.target? hk]
  | classOnly => exact hp.isKindOf _ _
  | exceptionOnly => simp only [Filter.accepts, hp.isKindOf]
  | instanceOnly => simp only [Filter.accepts, hp.target?]
  | _ => rfl

/-- The order of its filters does not matter to whether a request fires. -/
theorem requestFires (hp : a.Paired p b) (ctx : Context) {r r' : Request} (hr : r.Twin r') :
    b.requestFires ctx r' = a.requestFires ctx r := by
  have hthread : Option.Rel p.stands (a.requests.stepThread? r) (b.requests.stepThread? r') := by
    have hheld := hp.requests.notifications.get? r.registration.notification
    rw [RequestTable.stepThread?, RequestTable.stepThread?, hr.registration]
    generalize a.requests.notifications.get? r.registration.notification = held at hheld
    generalize b.requests.notifications.get? r.registration.notification = held' at hheld
    cases hheld with
    | none => exact .none
    | some hn => exact hn.thread
  rw [Agent.requestFires, Agent.requestFires, Request.fires, Request.fires]
  rw [funext (hp.accepts ctx hthread)]
  exact hr.filters.symm.all_eq

end Agent.Paired

namespace Request.Twin

variable {r r' : Request}

theorem advance (hr : r.Twin r') (ctx : Context) : (r.advance ctx).Twin (r'.advance ctx) :=
  ⟨hr.id, hr.kind, hr.policy, hr.filters.map _, hr.registration⟩

theorem isExpired (hr : r.Twin r') : r'.isExpired = r.isExpired := hr.filters.symm.any_eq

theorem wantsReceiver (hr : r.Twin r') : r'.wantsReceiver = r.wantsReceiver :=
  hr.filters.symm.any_eq

end Request.Twin

/-- What twins have in common is listed alike. -/
theorem map_eq_of_twins {α : Type} {requests requests' : List Request}
    (h : List.Forall₂ Request.Twin requests requests') {f : Request → α}
    (hf : ∀ {r r'}, Request.Twin r r' → f r' = f r) : requests'.map f = requests.map f := by
  induction h with
  | nil => rfl
  | cons hfirst _ ih => rw [List.map_cons, List.map_cons, hf hfirst, ih]

theorem twins_map {requests requests' : List Request}
    (h : List.Forall₂ Request.Twin requests requests') {f g : Request → Request}
    (hf : ∀ {r r'}, Request.Twin r r' → Request.Twin (f r) (g r')) :
    List.Forall₂ Request.Twin (requests.map f) (requests'.map g) :=
  List.forall₂_map_left_iff.mpr (List.forall₂_map_right_iff.mpr (h.imp fun _ _ hr => hf hr))

namespace Agent.Paired

theorem wantsReceiver (hp : a.Paired p b) (kind : EventKind) :
    b.wantsReceiver kind = a.wantsReceiver kind := by
  have hwants := map_eq_of_twins (hp.requests.ofKind kind) fun hr => hr.wantsReceiver
  have hany := congrArg (List.any · id) hwants
  rwa [List.any_map, List.any_map] at hany

theorem firing (hp : a.Paired p b) (kind : EventKind) (ctx : Context) :
    List.Forall₂ Request.Twin (a.firing kind ctx) (b.firing kind ctx) :=
  RequestTable.Paired.filter (hp.requests.ofKind kind) fun hr => hp.requestFires ctx hr

theorem expiring (hp : a.Paired p b) (kind : EventKind) (ctx : Context) :
    List.Forall₂ Request.Twin (a.expiring kind ctx) (b.expiring kind ctx) :=
  RequestTable.Paired.filter (twins_map (hp.firing kind ctx) fun hr => hr.advance ctx)
    fun hr => hr.isExpired

/-- The same event set is caused. -/
theorem firedIn? (hp : a.Paired p b) (kind : EventKind) (ctx : Context) :
    b.firedIn? kind ctx = a.firedIn? kind ctx := by
  have hfiring := hp.firing kind ctx
  have hevents : b.eventsOf kind ctx = a.eventsOf kind ctx := by
    rw [Agent.eventsOf, Agent.eventsOf, map_eq_of_twins hfiring fun hr => by rw [hr.id]]
  have hpolicy : b.policyOf kind ctx = a.policyOf kind ctx := by
    rw [Agent.policyOf, Agent.policyOf, map_eq_of_twins hfiring fun hr => hr.policy]
  simp only [Agent.firedIn?, Firing.Pass.fired?, hevents, hpolicy]

theorem advance (hp : a.Paired p b) (kind : EventKind) (ctx : Context) :
    (a.advance kind ctx).Paired p (b.advance kind ctx) := by
  refine hp.setRequests ⟨hp.requests.nextId, ?_, hp.requests.breakpoints,
    hp.requests.notifications⟩
  refine twins_map hp.requests.requests fun hr => ?_
  rw [hp.requestFires ctx hr, hr.kind]
  split
  · exact hr.advance ctx
  · exact hr

end Agent.Paired

/-! ### Processing -/

/-- What two agents have come to from states in which they were in step: the same result, and states
that are in step again under a pairing that goes on. -/
structure SameOutcome {α : Type} (p : Pairing) (vm vm' : Vm) (x y : α × Agent) : Prop where
  result : x.1 = y.1
  paired : ∃ p' : Pairing, p'.Continues p vm vm' ∧ x.2.Paired p' y.2

theorem SameOutcome.ages {α : Type} {x y : α × Agent} {vm vm' near near' : Vm}
    (h : SameOutcome p near near' x y) (ha : vm.Ages near) (ha' : vm'.Ages near') :
    SameOutcome p vm vm' x y := by
  obtain ⟨p', hc, hp⟩ := h.paired
  exact ⟨h.result, p', hc.ages ha ha', hp⟩

/-- What processing a callback does once it has been captured. -/
def Firing.conclude (kind : EventKind) (ctx : Context) : Command (Option Fired) := do
  let candidates := (← Action.look Agent.requests).ofKind kind
  let pass ← candidates.foldlM (visit ctx) { events := unrequested kind }
  pass.expired.forM Registration.remove
  return pass.fired? ctx

theorem Firing.perform_process (c : Callback Handle) (a : Agent) :
    (process c).perform a =
      if (a.requests.ofKind c.kind.eventKind).isEmpty && (unrequested c.kind.eventKind).isEmpty then
        (.ok none, a)
      else
        (Capture.capture (a.wantsReceiver c.kind.eventKind) c >>=
          conclude c.kind.eventKind).perform a := by
  rw [process, perform_bind, perform_look]
  dsimp only
  split <;> rfl

/-- The rule says what a callback comes to, up to the references that tests of filters use up. -/
theorem Firing.perform_conclude (ha : Sturdy a) (kind : EventKind) (ctx : Context) :
    ∃ used, (conclude kind ctx).perform a =
      (do (a.expiring kind ctx).forM Registration.remove
          return a.firedIn? kind ctx : Command (Option Fired)).perform
        ((a.advance kind ctx).spend used) := by
  obtain ⟨used, hpass⟩ := perform_pass ha.refs ha.sorted kind ctx
  refine ⟨used, ?_⟩
  rw [conclude, perform_bind, perform_look]
  dsimp only
  rw [perform_bind, hpass]
  rfl

namespace Agent.Paired

/-- Once a callback has been captured, the same requests fire and the same ones expire. -/
theorem conclude (hp : a.Paired p b) (ha : Sturdy a) (hb : Sturdy b) (kind : EventKind)
    (ctx : Context) :
    SameOutcome p a.vm b.vm ((Firing.conclude kind ctx).perform a)
      ((Firing.conclude kind ctx).perform b) := by
  obtain ⟨used, hpass⟩ := Firing.perform_conclude ha kind ctx
  obtain ⟨used', hpass'⟩ := Firing.perform_conclude hb kind ctx
  have hadvanced : ∀ {a}, Sturdy a → Sturdy (a.advance kind ctx) := fun h =>
    h.unfolds (Evolves.unfolds (.single (.advance kind ctx)))
  -- the tests are over, so that the agents can be paired anew before they remove what has expired
  have hspent := (hp.advance kind ctx).spend (hadvanced ha) (hadvanced hb) used used'
  have halike := (lockstep_bind_eq
    (lockstep_forM (fun hr => Registration.lockstep_remove hr) (hp.expiring kind ctx))
    fun _ => lockstep_pure (hp.firedIn? kind ctx).symm).alike hspent
  rw [hpass, hpass']
  exact ⟨halike.results_eq, _, (hp.advance kind ctx).continues_resumed used used', halike.states⟩

/-- Agents in step process a callback alike. -/
theorem process (hp : a.Paired p b) (ha : Sturdy a) (hb : Sturdy b) {c c' : Callback Handle}
    (hc : c.Paired p c') :
    SameOutcome p a.vm b.vm ((Firing.process c).perform a) ((Firing.process c').perform b) := by
  let kind := c.kind.eventKind
  have hempty : (b.requests.ofKind kind).isEmpty = (a.requests.ofKind kind).isEmpty := by
    have hlength := (hp.requests.ofKind kind).length_eq
    rw [Bool.eq_iff_iff, List.isEmpty_iff_length_eq_zero, List.isEmpty_iff_length_eq_zero, hlength]
  rw [Firing.perform_process, Firing.perform_process, hc.kind, hempty, hp.wantsReceiver]
  split
  · exact ⟨rfl, p, .refl p _ _, hp⟩
  · have halike := (Capture.lockstep_capture (a.wantsReceiver kind) hc).alike hp
    have hseen := ha.looks (Capture.looks_capture (a.wantsReceiver kind) c)
    have hseen' := hb.looks (Capture.looks_capture (a.wantsReceiver kind) c')
    rw [perform_bind, perform_bind]
    generalize (Capture.capture (a.wantsReceiver kind) c).perform a = outcome at halike hseen
    generalize (Capture.capture (a.wantsReceiver kind) c').perform b = outcome' at halike hseen'
    cases halike with
    | stops hstates => exact ⟨rfl, p, .refl p _ _, hstates⟩
    | results hstates hctx =>
        rw [← hctx]
        exact (hstates.conclude hseen.1 hseen'.1 kind _).ages hseen.2 hseen'.2

theorem answer_process (hp : a.Paired p b) (ha : Sturdy a) (hb : Sturdy b)
    {c c' : Callback Handle} (hc : c.Paired p c') (caller : NativeThread) :
    SameOutcome p a.vm b.vm (Command.answer caller (Firing.process c) a)
      (Command.answer caller (Firing.process c') b) := by
  have hsame : b.vm.attachFails = a.vm.attachFails := hp.vm.same fun _ _ _ => rfl
  cases hfails : a.vm.attachFails with
  | true =>
      rw [answer_of_not_attaching hfails, answer_of_not_attaching (hsame.trans hfails)]
      exact ⟨rfl, p, .refl p _ _, hp⟩
  | false =>
      have hnear := ha.looks (.attach trivial caller)
      have hnear' := hb.looks (.attach trivial caller)
      rw [perform_attach hfails] at hnear
      rw [perform_attach (hsame.trans hfails)] at hnear'
      have hprocess := (hp.setVm (hp.vm.attach caller)).process hnear.1 hnear'.1 hc
      rw [answer_of_attaching hfails, answer_of_attaching (hsame.trans hfails)]
      refine SameOutcome.ages ⟨?_, hprocess.paired⟩ hnear.2 hnear'.2
      exact congrArg (Except.mapError Stop.told) hprocess.result

/-- The same event set is sent, if one is. -/
theorem onCallback (hp : a.Paired p b) (ha : Sturdy a) (hb : Sturdy b) {c c' : Callback Handle}
    (hc : c.Paired p c') (caller : NativeThread) :
    SameOutcome p a.vm b.vm (a.fired? caller c, a.onCallback caller c)
      (b.fired? caller c', b.onCallback caller c') := by
  obtain ⟨hresult, p', hcontinues, hanswered⟩ := hp.answer_process ha hb hc caller
  have hfired : b.fired? caller c' = a.fired? caller c := by
    rw [Agent.fired?, Agent.fired?, hresult]
  refine ⟨hfired.symm, p', hcontinues, ?_⟩
  rw [Agent.onCallback_eq, Agent.onCallback_eq, hfired]
  split
  · exact hanswered.send _
  · exact hanswered

/-- The machines call back alike, and the references that a callback carries are gone after it. -/
theorem deliver (hp : a.Paired p b) (ha : Sturdy a) (hb : Sturdy b) (caller : NativeThread)
    (c : Callback HeapId) :
    SameOutcome p a.vm b.vm (Agent.deliver caller c a) (Agent.deliver caller c b) ∧
      a.sends? (.deliver caller c) = b.sends? (.deliver caller c) := by
  have hentered : ∀ {a}, Sturdy a → Sturdy (a.setVm (a.vm.enterCallback c).2) ∧
      a.vm.Ages (a.vm.enterCallback c).2 := by
    intro a h
    have hconserves := Vm.conserves_of_touches (Vm.touch_enterCallback c a.vm) h.refs
    exact ⟨h.unfolds (Evolves.unfolds (.single (.machine hconserves))), hconserves.toAges⟩
  obtain ⟨thread, thread', other, other', ht, ho, hcarried, hcarried', hv⟩ :=
    hp.vm.enterCallback c
  have hcalled := (hp.setVm hv).onCallback (hentered ha).1 (hentered hb).1
    (.intro c ht.stands ho.stands) caller
  obtain ⟨hresult, p', hcontinues, hreturned⟩ := hcalled
  -- the references that the callback carries were made before it was processed, so they are
  -- still paired when they are given up
  have hleft := hreturned.setVm
    (hreturned.vm.leaveCallback c (hcontinues.stands ht) (hcontinues.stands ho))
  rw [← hcarried, ← hcarried'] at hleft hresult
  have hdelivers := hp.vm.delivers c
  simp only [Agent.deliver, Agent.sends?, Agent.calledBack?, hdelivers]
  cases a.vm.delivers c with
  | false => exact ⟨⟨rfl, p, .refl p _ _, hp⟩, rfl⟩
  | true =>
      have hearlier := hcontinues.ages (hentered ha).2 (hentered hb).2
      exact ⟨⟨rfl, p', hearlier, hleft⟩, congrArg (Option.map Fired.events) hresult⟩

end Agent.Paired

end DebugAgent
