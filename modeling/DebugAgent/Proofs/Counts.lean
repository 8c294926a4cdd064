import DebugAgent.Proofs.Fired

/-!
# How often identifiers are handed out

The entry of an identifier counts how often it has been handed out.  `Tallies` says of a command what
it does to these counts: given the identifiers that have been handed out so far, it tells from the
result which ones have been in the end.

A callback hands out the identifiers of what it says when it is captured, before any request is
looked at and once for all that fire.  So the client is told of them as often as they are counted
only if exactly one event is sent.  If requests for the kind of callback are registered but none of
them fires, what was captured is counted although it is never sent, and if several fire, it is sent
more often than it is counted.
-/

namespace DebugAgent

open DebugAgent.Action Command Tracking

/-- How often an identifier has been handed out and not been given back. -/
def Agent.references (a : Agent) (id : ObjectId) : Nat :=
  ((a.tracker.entries.get? id).map Tracked.references).getD 0

/-- The identifiers in what an event says, as often as they occur. -/
def EventDetails.ids : EventDetails → List ObjectId
  | .vmDeath => []
  | .threadStart thread | .threadDeath thread => [thread]
  | .classPrepare thread refType _ _ => [thread, refType.typeId]
  | .breakpoint thread location | .step thread location | .methodEntry thread location
  | .methodExit thread location => [thread, location.classId]
  | .exception thread location thrown catchLocation =>
      [thread, location.classId, thrown.objectId] ++ (catchLocation.map Location.classId).toList

variable {α β : Type} {a b c : Agent} {ids owed : List ObjectId}

/-! ### Counts -/

/-- Identifiers have been handed out between two states: each is counted as often as it is listed.
The identifier 0 is no identifier of an object. -/
structure Counted (ids : List ObjectId) (a b : Agent) : Prop where
  bounded : IdsBounded b
  rose : ∀ id, id ≠ 0 → b.references id = a.references id + ids.count id

namespace Counted

theorem refl (hids : IdsBounded a) : Counted [] a a := ⟨hids, fun _ _ => rfl⟩

theorem of_tracker_eq (h : Counted ids a b) (htracker : c.tracker = b.tracker) :
    Counted ids a c where
  bounded := h.bounded.of_tracker_eq htracker
  rose := fun id hid => by rw [Agent.references, htracker]; exact h.rose id hid

theorem perm {other : List ObjectId} (h : Counted ids a b) (hperm : ids.Perm other) :
    Counted other a b where
  bounded := h.bounded
  rose := fun id hid => by rw [h.rose id hid, hperm.count_eq]

/-- The identifier of nothing does not count. -/
theorem cons_zero (h : Counted ids a b) : Counted (0 :: ids) a b where
  bounded := h.bounded
  rose := fun id hid => by rw [h.rose id hid, List.count_cons_of_ne hid.symm]

theorem cons {id : ObjectId} (h : Counted ids a b) (hids : IdsBounded c)
    (hself : c.references id = b.references id + 1)
    (hother : ∀ other, other ≠ id → c.references other = b.references other) :
    Counted (id :: ids) a c where
  bounded := hids
  rose := by
    intro other hpos
    by_cases hsame : other = id
    · subst hsame
      rw [hself, h.rose other hpos, List.count_cons_self]
      rfl
    · rw [hother other hsame, h.rose other hpos, List.count_cons_of_ne (Ne.symm hsame)]

theorem recount {id : ObjectId} {entry : Tracked} (h : Counted ids a b)
    (hentry : b.tracker.entries.get? id = some entry) :
    Counted (id :: ids) a
      { b with tracker := b.tracker.setReferences id entry (entry.references + 1) } := by
  apply h.cons (h.bounded.setReferences hentry (Nat.succ_pos _))
  · simp [Agent.references, Tracker.setReferences, hentry]
  · intro other hother
    simp [Agent.references, Tracker.setReferences, Table.get?_insert_of_ne hother]

theorem enrol (h : Counted ids a b) (object : HeapId) :
    Counted (b.tracker.nextId :: ids) a (b.enrol object) := by
  apply h.cons (h.bounded.enrol object)
  · simp [Agent.references, Agent.enrol, Tracker.add, h.bounded.get?_nextId]
  · intro other hother
    simp [Agent.references, Agent.enrol, Tracker.add, Table.get?_insert_of_ne hother]

end Counted

/-! ### Commands that hand out nothing -/

/-- The command leaves the table of identifiers alone. -/
def KeepsIds (x : Command α) : Prop := ∀ a, (x.perform a).2.tracker = a.tracker

namespace Command

theorem keepsIds_pure (r : α) : KeepsIds (pure r) := fun _ => rfl

theorem keepsIds_look (f : Agent → α) : KeepsIds (look f) := fun _ => rfl

theorem keepsIds_inspect (f : Agent → Except ProtocolError α) : KeepsIds (inspect f) := fun _ => rfl

theorem keepsIds_guard (condition : Bool) (cause : ProtocolError) :
    KeepsIds (Action.guard condition cause) := by
  cases condition <;> exact fun _ => rfl

theorem keepsIds_native (x : Action Vm ProtocolError α) : KeepsIds (native x) := fun _ => rfl

theorem keepsIds_call (x : Call α) : KeepsIds (call x) := fun _ => rfl

theorem keepsIds_tryCall (x : Call α) : KeepsIds (tryCall x) := fun _ => rfl

theorem keepsIds_touch (f : Vm → α × Vm) : KeepsIds (touch f) := fun _ => rfl

theorem keepsIds_adjust (f : Vm → Vm) : KeepsIds (adjust f) := fun _ => rfl

theorem keepsIds_bind {x : Command α} {f : α → Command β} (hx : KeepsIds x)
    (hf : ∀ r, KeepsIds (f r)) : KeepsIds (x >>= f) := by
  intro a
  have hfirst := hx a
  rw [perform_bind]
  cases hperform : x.perform a with
  | mk result b =>
      rw [hperform] at hfirst
      cases result with
      | ok r => exact (hf r b).trans hfirst
      | error stop => exact hfirst

theorem keepsIds_withLocals (hs : List Handle) {x : Command α} (hx : KeepsIds x) :
    KeepsIds (withLocals hs x) :=
  fun a => hx a

theorem keepsIds_attach (caller : NativeThread) : KeepsIds (attach caller) :=
  keepsIds_bind (keepsIds_look _) fun _ => keepsIds_bind (keepsIds_guard _ _) fun _ =>
    keepsIds_adjust _

theorem keepsIds_acquire (id : ObjectId) : KeepsIds (acquire id) := by
  apply keepsIds_bind (keepsIds_look _)
  intro tracker
  split
  · exact keepsIds_touch _
  · exact keepsIds_pure _

theorem keepsIds_withThread (id : ObjectId) {x : Handle → Command α} (hx : ∀ h, KeepsIds (x h)) :
    KeepsIds (withThread id x) :=
  keepsIds_bind (keepsIds_acquire id) fun h => keepsIds_withLocals [h] <|
    keepsIds_bind (keepsIds_look _) fun _ => keepsIds_bind (keepsIds_guard _ _) fun _ => hx h

theorem keepsIds_receiver (wanted : Bool) (thread : Handle) (method : MethodId) :
    KeepsIds (Capture.receiver wanted thread method) := by
  cases wanted with
  | false => exact keepsIds_pure none
  | true =>
      apply keepsIds_bind (keepsIds_look _)
      intro modifiers
      cases modifiers with
      | error e => exact keepsIds_pure none
      | ok modifiers =>
          dsimp only
          split
          · exact keepsIds_pure none
          · apply keepsIds_bind (keepsIds_tryCall _)
            intro value
            split
            · exact keepsIds_withLocals _ (keepsIds_look _)
            · exact keepsIds_pure none

theorem keepsIds_thrownClass (thrown : Handle) : KeepsIds (Capture.thrownClass thrown) :=
  keepsIds_bind (keepsIds_native _) fun cls => keepsIds_withLocals [cls] <|
    keepsIds_bind (keepsIds_guard _ _) fun _ => keepsIds_look _

theorem keepsIds_suspendAll (caller : NativeThread) : KeepsIds (Suspension.suspendAll caller) := by
  apply keepsIds_bind (keepsIds_tryCall _)
  intro current
  apply keepsIds_withLocals
  apply keepsIds_bind (keepsIds_call _)
  intro threads
  apply keepsIds_withLocals
  exact keepsIds_bind (keepsIds_look _) fun _ => keepsIds_bind (keepsIds_call _) fun _ =>
    keepsIds_pure ()

theorem keepsIds_applySuspension (target : SuspendTarget) :
    KeepsIds (Delivery.applySuspension target) := by
  cases target with
  | thread thread => exact keepsIds_withThread thread fun _ => keepsIds_call _
  | all => exact keepsIds_suspendAll .delivery

end Command

theorem KeepsIds.answer {x : Command α} (hx : KeepsIds x) (caller : NativeThread) (a : Agent) :
    (Command.answer caller x a).2.tracker = a.tracker := by
  rw [answer_snd]
  exact keepsIds_bind (keepsIds_attach caller) (fun _ => hx) a

/-! ### Commands that hand out identifiers -/

/-- What has been handed out when a command comes to an end.  Its result tells which identifiers; if
it comes to none, some have been. -/
def Handed (first : Agent) (ids : α → List ObjectId) :
    Except (Stop ProtocolError) α × Agent → Prop
  | (.ok r, b) => Counted (ids r) first b
  | (.error _, b) => ∃ some, Counted some first b

/-- Where the identifiers in `owed` have been handed out before, those in `ids` have been when the
command comes to an end. -/
def Tallies (owed : List ObjectId) (x : Command α) (ids : α → List ObjectId) : Prop :=
  ∀ first a, Counted owed first a → Handed first ids (x.perform a)

namespace Tallies

variable {mid : α → List ObjectId} {last : β → List ObjectId}

theorem ret {ids : α → List ObjectId} {r : α} (hperm : owed.Perm (ids r)) :
    Tallies owed (pure r) ids :=
  fun _ _ hcounted => hcounted.perm hperm

theorem bind {x : Command α} {f : α → Command β} (hx : Tallies owed x mid)
    (hf : ∀ r, Tallies (mid r) (f r) last) : Tallies owed (x >>= f) last := by
  intro first a hcounted
  have hmid := hx first a hcounted
  rw [perform_bind]
  cases hperform : x.perform a with
  | mk result b =>
      rw [hperform] at hmid
      cases result with
      | ok r => exact hf r first b hmid
      | error stop => exact hmid

/-- A command that hands out nothing. -/
theorem keeps {x : Command α} (hx : KeepsIds x) : Tallies owed x fun _ => owed := by
  intro first a hcounted
  have htracker := hx a
  cases hperform : x.perform a with
  | mk result b =>
      rw [hperform] at htracker
      have hlater := hcounted.of_tracker_eq htracker
      cases result with
      | ok r => exact hlater
      | error stop => exact ⟨owed, hlater⟩

/-- A command that hands out nothing comes first. -/
theorem after {x : Command α} {f : α → Command β} (hx : KeepsIds x)
    (hf : ∀ r, Tallies owed (f r) last) : Tallies owed (x >>= f) last :=
  (keeps hx).bind hf

theorem withLocals {x : Command α} {ids : α → List ObjectId} (hs : List Handle)
    (hx : Tallies owed x ids) : Tallies owed (Command.withLocals hs x) ids := by
  intro first a hcounted
  have hlater := hx first a hcounted
  rw [perform_withLocals]
  cases hperform : x.perform a with
  | mk result b =>
      rw [hperform] at hlater
      cases result with
      | ok r => exact hlater.of_tracker_eq rfl
      | error stop =>
          obtain ⟨some, hsome⟩ := hlater
          exact ⟨some, hsome.of_tracker_eq rfl⟩

theorem withLocal {x : Command α} {ids : α → List ObjectId} (h : Handle)
    (hx : Tallies owed x ids) : Tallies owed (Command.withLocal h x) ids :=
  hx.withLocals [h]

theorem trackNew (owed : List ObjectId) (h : Handle) :
    Tallies owed (Tracking.trackNew h) fun id => id :: owed := by
  intro first a hcounted
  rcases trackNew_cases a h with ⟨stop, heq⟩ | heq |
    ⟨object, tag, htag, ⟨id, entry, hentry, heq⟩ | ⟨hnew, heq⟩⟩
  · rw [heq]
    exact ⟨owed, hcounted⟩
  · rw [heq]
    exact hcounted.cons_zero
  · rw [heq]
    exact hcounted.recount hentry
  · rw [heq]
    exact hcounted.enrol object

theorem trackObject (owed : List ObjectId) (h : Handle) (declared : TypeTag) :
    Tallies owed (Tracking.trackObject h declared) fun object => object.objectId :: owed := by
  rw [Tracking.trackObject]
  split
  · exact fun _ _ hcounted => hcounted.cons_zero
  · apply after (keepsIds_native _)
    intro cls
    apply withLocal
    refine after (keepsIds_guard _ _) fun _ => ?_
    refine after (keepsIds_inspect _) fun _ => ?_
    exact (trackNew owed h).bind fun _ => ret (.refl _)

theorem trackClass (owed : List ObjectId) (h : Handle) :
    Tallies owed (Tracking.trackClass h) fun type => type.typeId :: owed := by
  refine after (keepsIds_guard _ _) fun _ => ?_
  refine after (keepsIds_inspect _) fun _ => ?_
  refine after (keepsIds_inspect _) fun _ => ?_
  exact (trackNew owed h).bind fun _ => ret (.refl _)

end Tallies

/-! ### What is captured -/

namespace Capture

theorem tallies_scene (owed : List ObjectId) (thread : Handle) :
    Tallies owed (scene thread) fun s => s.threadId :: owed :=
  (Tallies.trackNew owed thread).bind fun _ =>
    Tallies.after (keepsIds_look _) fun _ => .ret (.refl _)

theorem tallies_site (owed : List ObjectId) (method : MethodId) (index : CodeIndex) :
    Tallies owed (site method index) fun s => s.location.classId :: owed := by
  apply Tallies.after (keepsIds_call _)
  intro cls
  apply Tallies.withLocal
  refine Tallies.after (keepsIds_guard _ _) fun _ => ?_
  have hlocation : Tallies owed (Positions.locationIn cls method index)
      fun location => location.classId :: owed :=
    (Tallies.trackClass owed cls).bind fun _ => .ret (.refl _)
  refine hlocation.bind fun _ => ?_
  refine Tallies.after (keepsIds_inspect _) fun _ => ?_
  exact Tallies.after (keepsIds_look _) fun _ => .ret (.refl _)

/-- Where an exception will be caught. -/
theorem tallies_catchSite (owed : List ObjectId) (method : MethodId) (index : CodeIndex) :
    Tallies owed (some <$> site method index) fun caught =>
      (caught.map fun spot => spot.location.classId).toList ++ owed := by
  rw [map_eq_pure_bind]
  exact (tallies_site owed method index).bind fun _ => .ret (.refl _)

/-- Whatever else is looked at, capturing a callback hands out the identifiers of its details. -/
theorem tallies_capture (wantsReceiver : Bool) (c : Callback Handle) :
    Tallies [] (capture wantsReceiver c) fun ctx => ctx.details.ids := by
  cases c with
  | vmDeath => exact .ret (.refl _)
  | threadStart thread | threadEnd thread =>
      exact (tallies_scene [] thread).bind fun _ => .ret (.refl _)
  | classPrepare thread prepared =>
      refine (tallies_scene [] thread).bind fun s => ?_
      refine Tallies.after (keepsIds_touch _) fun cls => ?_
      apply Tallies.withLocal
      refine Tallies.after (keepsIds_guard _ _) fun _ => ?_
      refine (Tallies.trackClass [s.threadId] cls).bind fun refType => ?_
      refine Tallies.after (keepsIds_inspect _) fun _ => ?_
      refine Tallies.after (keepsIds_inspect _) fun _ => ?_
      exact Tallies.after (keepsIds_look _) fun _ => .ret (.swap _ _ _)
  | breakpoint thread method index | methodExit thread method index =>
      refine (tallies_scene [] thread).bind fun s => ?_
      refine (tallies_site [s.threadId] method index).bind fun _ => ?_
      exact Tallies.after (keepsIds_receiver _ _ _) fun _ => .ret (.swap _ _ _)
  | methodEntry thread method =>
      refine (tallies_scene [] thread).bind fun s => ?_
      refine Tallies.after (keepsIds_inspect _) fun bounds => ?_
      refine (tallies_site [s.threadId] method bounds.1).bind fun _ => ?_
      exact Tallies.after (keepsIds_receiver _ _ _) fun _ => .ret (.swap _ _ _)
  | singleStep thread method index =>
      refine (tallies_scene [] thread).bind fun s => ?_
      refine (tallies_site [s.threadId] method index).bind fun _ => ?_
      refine Tallies.after (keepsIds_look _) fun _ => ?_
      refine Tallies.after (keepsIds_look _) fun _ => ?_
      exact Tallies.after (keepsIds_receiver _ _ _) fun _ => .ret (.swap _ _ _)
  | exception thread method index thrown handler =>
      refine (tallies_scene [] thread).bind fun s => ?_
      refine (tallies_site [s.threadId] method index).bind fun spot => ?_
      refine Tallies.after (keepsIds_thrownClass _) fun _ => ?_
      refine (Tallies.trackObject [spot.location.classId, s.threadId] thrown .object).bind
        fun object => ?_
      -- What was handed out is listed newest first, and the details name it oldest first.
      let owed := [object.objectId, spot.location.classId, s.threadId]
      have howed : owed.Perm [s.threadId, spot.location.classId, object.objectId] :=
        (List.reverse_perm owed).symm
      cases handler with
      | none =>
          dsimp only
          rw [pure_bind]
          exact Tallies.after (keepsIds_receiver _ _ _) fun _ => .ret howed
      | some position =>
          refine (tallies_catchSite owed position.1 position.2).bind fun caught => ?_
          refine Tallies.after (keepsIds_receiver _ _ _) fun _ => .ret ?_
          cases caught with
          | none => exact howed
          | some spot =>
              exact List.perm_append_comm.trans (howed.append_right [spot.location.classId])

end Capture

/-! ### Callbacks -/

section Callbacks

variable (a : Agent) (caller : NativeThread) (c : Callback Handle)

/-- Something could fire, so a callback of this kind is looked at. -/
def Agent.LooksAt (kind : EventKind) : Prop :=
  a.requests.ofKind kind ≠ [] ∨ Firing.unrequested kind ≠ []

/-- The events that a callback fires. -/
def Agent.firedEvents : List Event :=
  (a.fired? caller c).elim [] fun fired => fired.events.events

/-- A callback counts each identifier as often as it occurs in the details of what it fires. -/
def Agent.CountsFired : Prop :=
  ∀ id, id ≠ 0 → (a.onCallback caller c).references id =
    a.references id + ((a.firedEvents caller c).flatMap fun event => event.details.ids).count id

theorem send_tracker (fired : Fired) : (Delivery.send fired a).tracker = a.tracker := by
  rw [Delivery.send]
  split
  · rfl
  · change (Delivery.suspendFor fired.suspend a).tracker = a.tracker
    cases fired.suspend with
    | none => rfl
    | some target => exact (keepsIds_applySuspension target).answer .delivery a

theorem onCallback_tracker :
    (a.onCallback caller c).tracker = (answer caller (Firing.process c) a).2.tracker := by
  rw [Agent.onCallback_eq]
  split
  · exact send_tracker _ _
  · rfl

/-- What has been captured of a callback has been handed out. -/
theorem handed_captured (hids : IdsBounded a) :
    Handed a (fun ctx => ctx.details.ids) (a.captured caller c) := by
  rw [Agent.captured, seqRight_eq_bind]
  have htallies := Tallies.after (keepsIds_attach caller) fun _ =>
    Capture.tallies_capture (a.wantsReceiver c.kind.eventKind) c
  exact htallies a a (.refl hids)

variable {a caller c}

/-- A callback that could fire nothing is not captured. -/
theorem answer_of_not_looksAt (caller : NativeThread) (hnot : ¬ a.LooksAt c.kind.eventKind) :
    a.fired? caller c = none ∧ (answer caller (Firing.process c) a).2.tracker = a.tracker := by
  have hleaves := (Looks.attach trivial caller).leaves a
  have htracker := keepsIds_attach caller a
  rw [Agent.fired?, answer_snd, answer, seqRight_eq_bind, Action.perform_bind]
  generalize (attach caller).perform a = outcome at hleaves htracker
  obtain ⟨stop | _, near⟩ := outcome
  · cases stop <;> exact ⟨rfl, htracker⟩
  · rw [Agent.LooksAt, ← hleaves.1, not_or, not_not, not_not] at hnot
    simpa [Firing.process, Action.perform_bind, hnot] using htracker

/-- All events that a callback fires have the identifiers that were captured. -/
theorem ids_of_mem_firedIn {kind : EventKind} {ctx : Context} {event : Event}
    (hdeath : kind = .vmDeath → ctx.details = .vmDeath)
    (hmem : event ∈ (a.firedIn? kind ctx).elim [] fun fired => fired.events.events) :
    event.details.ids = ctx.details.ids := by
  rw [firedIn?_eq hdeath] at hmem
  split at hmem
  · cases hmem
  · obtain ⟨id, -, rfl⟩ := List.mem_map.mp hmem
    rfl

theorem count_flatMap_ids {noted : List ObjectId} {events : List Event}
    (hsame : ∀ event ∈ events, event.details.ids = noted) (id : ObjectId) :
    (events.flatMap fun event => event.details.ids).count id = events.length * noted.count id := by
  induction events with
  | nil => simp
  | cons event events ih =>
      obtain ⟨hfirst, hrest⟩ := List.forall_mem_cons.mp hsame
      rw [List.flatMap_cons, List.count_append, ih hrest, hfirst, List.length_cons, Nat.succ_mul,
        Nat.add_comm]

/-- Whatever was counted once is told once only if there is one event, or nothing to tell. -/
theorem countsFired_iff {noted : List ObjectId}
    (hrose : ∀ id, id ≠ 0 →
      (a.onCallback caller c).references id = a.references id + noted.count id)
    (hsame : ∀ event ∈ a.firedEvents caller c, event.details.ids = noted) :
    a.CountsFired caller c ↔ (a.firedEvents caller c).length = 1 ∨ ∀ id ∈ noted, id = 0 := by
  have hcounts : a.CountsFired caller c ↔
      ∀ id, id ≠ 0 → noted.count id = (a.firedEvents caller c).length * noted.count id := by
    refine forall₂_congr fun id hid => ?_
    rw [hrose id hid, count_flatMap_ids hsame, Nat.add_left_cancel_iff]
  rw [hcounts]
  constructor
  · intro hall
    by_contra hneither
    obtain ⟨hmany, hsome⟩ := not_or.mp hneither
    obtain ⟨id, hmem, hid⟩ : ∃ id ∈ noted, id ≠ 0 := by
      by_contra hnone
      exact hsome fun id hmem => of_not_not fun hid => hnone ⟨id, hmem, hid⟩
    have hpos : 0 < noted.count id := List.count_pos_iff.mpr hmem
    exact hmany (Nat.eq_of_mul_eq_mul_right hpos ((hall id hid).symm.trans (Nat.one_mul _).symm))
  · rintro (hone | hzero) id hid
    · rw [hone, Nat.one_mul]
    · rw [List.count_eq_zero.mpr fun hmem => hid (hzero id hmem), Nat.mul_zero]

/-- A callback that is looked at hands out what is captured of it, and that is what it tells. -/
theorem counted_onCallback (caller : NativeThread) (ho : InOrder a)
    (hlooks : a.LooksAt c.kind.eventKind) :
    ∃ noted, Counted noted a (a.onCallback caller c) ∧
      (∀ ctx seen, a.captured caller c = (.ok ctx, seen) → noted = ctx.details.ids) ∧
      ∀ event ∈ a.firedEvents caller c, event.details.ids = noted := by
  have hhanded := handed_captured a caller c ho.ids
  have htracker := onCallback_tracker a caller c
  have hanswered := answered caller c ho.toOrderly
  rw [Agent.firedEvents]
  generalize a.fired? caller c = fired? at hanswered ⊢
  generalize (answer caller (Firing.process c) a).2 = b at hanswered htracker
  cases hanswered with
  | skipped hnone hunrequested =>
      rcases hlooks with hlooks | hlooks
      · exact absurd hnone hlooks
      · exact absurd hunrequested hlooks
  | failed hfailed =>
      rw [hfailed] at hhanded
      obtain ⟨noted, hnoted⟩ := hhanded
      refine ⟨noted, hnoted.of_tracker_eq htracker, ?_, fun _ hmem => absurd hmem List.not_mem_nil⟩
      intro ctx seen hcaptured
      cases hfailed.symm.trans hcaptured
  | @passed ctx seen b hcaptured hpassed =>
      rw [hcaptured] at hhanded
      refine ⟨ctx.details.ids, hhanded.of_tracker_eq (htracker.trans hpassed.tracker), ?_, ?_⟩
      · intro other _ hother
        cases hcaptured.symm.trans hother
        rfl
      · intro event hmem
        exact ids_of_mem_firedIn (details_of_vmDeath hcaptured) hmem

end Callbacks

/-- A callback counts the identifiers of its details once, as they are captured.  It counts none if
nothing of its kind is registered, and what it had come to if it cannot be captured.  Each event that
it fires tells all of these.  So it counts what it tells exactly if it fires one event, or if there
was nothing to count. -/
theorem callback_counts_captured (past : Past) (caller : NativeThread) (c : Callback Handle) :
    let a := past.agent
    ∃ noted : List ObjectId,
      (∀ id, id ≠ 0 →
        (a.onCallback caller c).references id = a.references id + noted.count id) ∧
      (¬ a.LooksAt c.kind.eventKind → noted = []) ∧
      (a.LooksAt c.kind.eventKind → ∀ ctx seen, a.captured caller c = (.ok ctx, seen) →
        noted = ctx.details.ids) ∧
      (∀ event ∈ a.firedEvents caller c, event.details.ids = noted) ∧
      (a.CountsFired caller c ↔
        (a.firedEvents caller c).length = 1 ∨ ∀ id ∈ noted, id = 0) := by
  intro a
  have ho : InOrder a := past.inOrder
  by_cases hlooks : a.LooksAt c.kind.eventKind
  · obtain ⟨noted, hcounted, hcaptured, hsame⟩ := counted_onCallback caller ho hlooks
    exact ⟨noted, hcounted.rose, fun h => absurd hlooks h, fun _ => hcaptured, hsame,
      countsFired_iff hcounted.rose hsame⟩
  · obtain ⟨hfired, htracker⟩ := answer_of_not_looksAt caller hlooks
    have hrose : ∀ id, id ≠ 0 →
        (a.onCallback caller c).references id = a.references id + ([] : List ObjectId).count id := by
      intro id _
      rw [Agent.references, onCallback_tracker, htracker]
      rfl
    have hsame : ∀ event ∈ a.firedEvents caller c, event.details.ids = [] := by
      rw [Agent.firedEvents, hfired]
      exact fun _ hmem => absurd hmem List.not_mem_nil
    exact ⟨[], hrose, fun _ => rfl, fun h => absurd h hlooks, hsame, countsFired_iff hrose hsame⟩

/-- Two requests tell of the start of a thread.  The client receives its identifier twice, but it
counts once. -/
theorem counted_once_told_twice :
    ¬ Agent.CountsFired
      (Past.agent ⟨[.spawnThread "worker"], {},
        [.op (.attach (.client 0) true),
          .op (.command (.client 0) (.setEvent 6 .none [])),
          .op (.command (.client 0) (.setEvent 6 .none [])),
          .makeRef .localRef 9]⟩)
      (.client 0) (.threadStart ⟨4096⟩) := by
  intro hcounts
  have hone := hcounts 1 (by decide)
  cases hone

end DebugAgent
