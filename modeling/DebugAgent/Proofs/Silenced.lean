import DebugAgent.Proofs.Delivered
import DebugAgent.Proofs.Independence

/-!
# Filters on identifiers that are gone

A filter may name an object by its identifier: the thread of an event, a class, a receiver, the class
of an exception.  The identifier may be given back while the request is registered.  The object lives
on, and when it is met again it gets a new identifier, while the old one is never handed out again.
So the filter has nothing left that it could match, and its request is silenced for good.  It stays
in the table and is tested like the others, which do not notice.
-/

namespace DebugAgent

open DebugAgent.Action Command Tracking

variable {a b : Agent} {request : Request} {op : Op} {id : ObjectId}

/-! ### Filters that name an object -/

/-- The object that a filter names.  An exception filter for the class 0 names none. -/
def Filter.named? : Filter → Option ObjectId
  | .threadOnly thread => some thread
  | .classOnly refType => some refType
  | .exceptionOnly refType _ _ => if refType = 0 then none else some refType
  | .instanceOnly object => some object
  | _ => none

/-- A filter of the request names the object. -/
def Request.Names (request : Request) (id : ObjectId) : Prop :=
  ∃ filter ∈ request.filters, filter.named? = some id

theorem Filter.named?_advance (ctx : Context) (filter : Filter) :
    (filter.advance ctx).named? = filter.named? := by
  cases filter with
  | step state =>
      rw [advance]
      split <;> rfl
  | _ => rfl

theorem Request.Names.advance (h : request.Names id) (ctx : Context) :
    (request.advance ctx).Names id := by
  obtain ⟨filter, hmem, hnamed⟩ := h
  exact ⟨filter.advance ctx, List.mem_map_of_mem hmem, (filter.named?_advance ctx).trans hnamed⟩

/-- A filter that names an object by an identifier that is not in use lets nothing through. -/
theorem Filter.rejects_of_dead (hdead : ¬ a.Knows id) {ctx : Context} (hctx : ctx.threadId ≠ id)
    {filter : Filter} (hnamed : filter.named? = some id) (stepThread : Option Handle) :
    filter.accepts a.vm a.tracker ctx stepThread = false := by
  have htarget := target?_of_not_knows hdead a.vm
  have hkind : ∀ cls, isKindOf a.vm a.tracker id cls = false := by
    intro cls
    cases cls <;> simp [isKindOf, htarget]
  cases filter with
  | threadOnly =>
      cases hnamed
      exact decide_eq_false hctx
  | classOnly =>
      cases hnamed
      exact hkind ctx.cls
  | exceptionOnly refType caught uncaught =>
      rw [named?] at hnamed
      split at hnamed
      · cases hnamed
      · rename_i hrefType
        cases hnamed
        simp [accepts, hrefType, hkind]
  | instanceOnly =>
      cases hnamed
      rw [accepts, htarget]
      cases ctx.receiver <;> rfl
  | _ => cases hnamed

/-! ### The thread of a callback -/

/-- What is handed out is 0 or an identifier in use. -/
theorem knows_of_trackNew {h : Handle} (hperform : (trackNew h).perform a = (.ok id, b)) :
    id = 0 ∨ b.Knows id := by
  rcases trackNew_cases a h with ⟨stop, heq⟩ | heq |
    ⟨object, tag, -, ⟨known, entry, hentry, heq⟩ | ⟨-, heq⟩⟩
  · cases heq.symm.trans hperform
  · cases heq.symm.trans hperform
    exact .inl rfl
  · cases heq.symm.trans hperform
    exact .inr (by simp [Agent.Knows, Tracker.setReferences])
  · cases heq.symm.trans hperform
    exact .inr (by simp [Agent.Knows, Agent.enrol, Tracker.add])

/-- Identifiers that are in use stay in use while the agent looks at the machine. -/
theorem Command.Looks.knows {α : Type} {x : Command α} (hx : Looks Control.Any x)
    (hknows : a.Knows id) : (x.perform a).2.Knows id := by
  have hsame : ∀ b : Agent, b.Knows id ↔ (b.tracker.global? id).isSome := by
    intro b
    rw [Agent.Knows, Tracker.global?, Option.isSome_map]
  rw [hsame] at hknows ⊢
  exact hx.makes.preserves (P := fun b => (b.tracker.global? id).isSome) (fun h => h.inUse) hknows

/-- A captured callback names its thread by an identifier in use, or by 0. -/
theorem knows_thread_of_captured {caller : NativeThread} {c : Callback Handle} {ctx : Context}
    (hcaptured : a.captured caller c = (.ok ctx, b)) : ctx.threadId = 0 ∨ b.Knows ctx.threadId := by
  cases hthread : c.thread? with
  | none => exact .inl (threadId_of_no_thread hcaptured hthread)
  | some h =>
      obtain ⟨near, rest, htrack, -, hlooks, hlast⟩ := tracked_of_captured hcaptured hthread
      have hkept := fun hknows : near.Knows ctx.threadId => hlooks.knows hknows
      rw [hlast] at hkept
      exact (knows_of_trackNew htrack).imp_right hkept

/-! ### Identifiers that are lost -/

/-- The identifier has been handed out and is not in use any more. -/
def Agent.HasLost (a : Agent) (id : ObjectId) : Prop := a.HasHandedOut id ∧ ¬ a.Knows id

theorem Agent.HasLost.unfolds (h : a.HasLost id) (hunfolds : Unfolds a b) : b.HasLost id := by
  have honward := Onward.unfolds hunfolds
  refine ⟨⟨h.1.1, Nat.lt_of_lt_of_le h.1.2 honward.nextId_le⟩, fun hknows => ?_⟩
  exact h.2 (honward.knows id h.1.2 hknows)

theorem rejects_of_lost (ho : Orderly a) (hlost : a.HasLost id) (hnames : request.Names id)
    {sighting : Sighting} (hsighting : a.sighting? op = some sighting) :
    sighting.accepts request = false := by
  have hgone : sighting.seen.HasLost id := hlost.unfolds (evolves_of_sighting ho hsighting).unfolds
  obtain ⟨kind, ctx, seen⟩ := sighting
  obtain ⟨near, caller, c, hcalled, hcaptured, -⟩ := Agent.sighting?_eq_some hsighting
  have hctx : ctx.threadId ≠ id := by
    rintro rfl
    rcases knows_thread_of_captured hcaptured with hzero | hknows
    · exact Nat.ne_of_gt hlost.1.1 hzero
    · exact hgone.2 hknows
  obtain ⟨filter, hmem, hnamed⟩ := hnames
  refine Bool.eq_false_iff.mpr fun haccepts => ?_
  have hfires := (accepts_iff.mp haccepts).2
  have haccepted := List.all_eq_true.mp hfires filter hmem
  rw [Filter.rejects_of_dead hgone.2 hctx hnamed] at haccepted
  cases haccepted

/-! ### Requests that are silenced -/

theorem events_firedIn (kind : EventKind) (ctx : Context) :
    (a.firedIn? kind ctx).map Fired.events =
      if (a.eventsOf kind ctx).isEmpty then none
      else some ⟨a.policyOf kind ctx, a.eventsOf kind ctx⟩ := by
  rw [Agent.firedIn?, Firing.Pass.fired?]
  split <;> rfl

/-- A request under this identifier, if it is registered, names the object. -/
def Agent.NamesUnder (a : Agent) (request : RequestId) (id : ObjectId) : Prop :=
  ∀ registered ∈ a.requests.requests, registered.id = request → registered.Names id

namespace Agent.NamesUnder

variable {name : RequestId}

theorem of_mem (ho : Orderly a) (hmem : request ∈ a.requests.requests) (hnames : request.Names id) :
    a.NamesUnder request.id id := by
  intro registered hregistered hid
  rwa [eq_of_id_eq ho hmem hregistered hid]

/-- A request keeps its filters as long as it is registered, and its identifier is not used again. -/
theorem apply (h : a.NamesUnder name id) (ho : Orderly a) (hold : name < a.requests.nextId)
    (op : Op) : (a.apply op).NamesUnder name id := by
  rintro later hmem rfl
  have hlater := (find?_eq_some_iff (ho.leads (leads_apply op ho))).mpr ⟨hmem, rfl⟩
  obtain ⟨request, hfound, hbecomes⟩ := find?_before_apply ho hold hlater
  obtain ⟨hbefore, hid⟩ := (find?_eq_some_iff ho).mp hfound
  have hnames := h request hbefore hid
  rw [hbecomes]
  cases a.accepted? request op with
  | none => exact hnames
  | some ctx => exact hnames.advance ctx

theorem run (h : a.NamesUnder name id) (ho : Orderly a) (hold : name < a.requests.nextId)
    (ops : List Op) : (a.run ops).NamesUnder name id := by
  induction ops generalizing a with
  | nil => exact h
  | cons op ops ih =>
      exact ih (h.apply ho hold op) (ho.leads (leads_apply op ho))
        (Int.lt_of_lt_of_le hold (nextId_le_apply ho op))

theorem not_fires (h : a.NamesUnder name id) (ho : Orderly a) (hlost : a.HasLost id)
    (hname : name ≠ 0) (op : Op) : name ∉ a.fires op := by
  intro hfires
  obtain ⟨request, hfound, haccepted⟩ := (mem_fires_iff ho op hname).mp hfires
  obtain ⟨hmem, hid⟩ := (find?_eq_some_iff ho).mp hfound
  obtain ⟨ctx, hctx⟩ := Option.isSome_iff_exists.mp haccepted
  obtain ⟨sighting, hsighting, haccepts, -⟩ := accepted?_eq_some.mp hctx
  rw [rejects_of_lost ho hlost (h request hmem hid) hsighting] at haccepts
  cases haccepts

/-- Without the request, the same requests fire. -/
theorem firing_drop (h : a.NamesUnder name id) (ho : Orderly a) (hlost : a.HasLost id)
    {s t : Sighting} (hs : a.sighting? op = some s) (ht : (a.drop name).sighting? op = some t)
    (halike : s.Alike t) : t.seen.firing t.kind t.ctx = s.seen.firing s.kind s.ctx := by
  rw [Agent.firing, Agent.firing, RequestTable.ofKind, RequestTable.ofKind,
    requests_of_sighting ho hs, requests_of_sighting (ho.drop name) ht, Agent.drop,
    RequestTable.remove, List.filter_filter, List.filter_filter, List.filter_filter, halike.kind]
  apply List.filter_congr
  intro request hmem
  have hfirst := @accepts_iff request s
  have hsecond := @accepts_iff request t
  rw [halike.kind] at hsecond
  rw [Bool.eq_iff_iff]
  simp only [Bool.and_eq_true, decide_eq_true_eq]
  by_cases hname : request.id = name
  · have hrejects := rejects_of_lost ho hlost (h request hmem hname) hs
    rw [hrejects] at hfirst
    exact iff_of_false (fun hkept => hkept.2 hname)
      fun hfires => Bool.false_ne_true (hfirst.mpr hfires.symm)
  · have hleft : request ∈ (a.drop name).requests.requests :=
      List.mem_filter.mpr ⟨hmem, decide_eq_true hname⟩
    have hsame := halike.accepts_registered ho (ho.drop name) hs ht hmem hleft rfl
    rw [hsame, hfirst] at hsecond
    rw [and_iff_left hname, and_comm, ← hsecond, and_comm]

/-- Without the request, a callback causes the same event set. -/
theorem sends?_drop (h : a.NamesUnder name id) (ho : Orderly a) (hlost : a.HasLost id) (op : Op) :
    (a.drop name).sends? op = a.sends? op := by
  rw [sends?_eq ho, sends?_eq (ho.drop name)]
  rcases sightings_alike ho (sameWorld_drop a name) op with ⟨hnone, hnone'⟩ | ⟨s, t, hs, ht, halike⟩
  · rw [hnone, hnone']
  · have hfiring := h.firing_drop ho hlost hs ht halike
    obtain ⟨receiver, hctx⟩ := halike.ctx
    have hdetails : t.ctx.details = s.ctx.details := by rw [hctx]
    have hevents : t.seen.eventsOf t.kind t.ctx = s.seen.eventsOf s.kind s.ctx := by
      rw [Agent.eventsOf, Agent.eventsOf, hfiring, hdetails, halike.kind]
    have hpolicy : t.seen.policyOf t.kind t.ctx = s.seen.policyOf s.kind s.ctx := by
      rw [Agent.policyOf, Agent.policyOf, hfiring]
    rw [hs, ht, Option.bind_some, Option.bind_some, events_firedIn, events_firedIn, hevents, hpolicy]

end Agent.NamesUnder

/-- Once the identifier that a filter of a registered request names has been given back for good,
whatever happens next the request does not fire again.  The other requests fire as if it were not
there: each callback causes the event set that it would cause without the request, and what the
others take note of is the same. -/
theorem lost_identifier_silences_request (past : Past) (between later : List Op)
    (hused : past.agent.Knows id) (hgone : ¬ (past.agent.run between).Knows id)
    (hmem : request ∈ (past.agent.run between).requests.requests) (hnames : request.Names id) :
    let a := (past.agent.run between).run later
    let without := a.drop request.id
    (∀ op, request.id ∉ a.fires op) ∧ ∀ op, op.callsBack →
      without.sends? op = a.sends? op ∧
      ∀ other ∈ a.requests.requests, other.id ≠ request.id →
        (without.apply op).requests.find? other.id = (a.apply op).requests.find? other.id := by
  intro a without
  have ho : InOrder past.agent := past.inOrder
  have hreleased : Orderly (past.agent.run between) := ho.toOrderly.run between
  have ha : Orderly a := hreleased.run later
  have hlost : a.HasLost id := by
    have hbefore : (past.agent.run between).HasLost id := by
      refine ⟨⟨(handedOut_of_knows ho hused).1, ?_⟩, hgone⟩
      exact Nat.lt_of_lt_of_le (handedOut_of_knows ho hused).2
        (Onward.unfolds (unfolds_run ho.toOrderly between)).nextId_le
    exact hbefore.unfolds (unfolds_run hreleased later)
  have hunder : a.NamesUnder request.id id :=
    (Agent.NamesUnder.of_mem hreleased hmem hnames).run hreleased (hreleased.fresh request hmem) later
  have hpositive : 1 ≤ request.id :=
    (past.idsPositive.run ho.toOrderly between).2 request hmem
  have hid : request.id ≠ 0 := Int.ne_of_gt hpositive
  refine ⟨hunder.not_fires ha hlost hid, fun op hop => ?_⟩
  refine ⟨hunder.sends?_drop ha hlost op, fun other hother hne => ?_⟩
  have hleft : other ∈ without.requests.requests :=
    List.mem_filter.mpr ⟨hother, decide_eq_true hne⟩
  exact (alike_among_others ha (ha.drop request.id) (sameWorld_drop a request.id) hother hleft rfl
    hop).2.symm

/-- A breakpoint for one thread, whose identifier is given back.  The thread is listed again, and the
breakpoint is hit in it. -/
theorem breakpoint_for_lost_thread_is_silent :
    let here : EventModifier := .locationOnly ⟨.classType, 4, 0x1000, 4⟩
    let setting : List Op := [.command (.client 0) (.setEvent 2 .none [.threadOnly 1, here]),
      .command (.client 0) (.setEvent 2 .none [here])]
    let disposal : Op := .command (.client 0) (.disposeObjects [⟨1, 1⟩])
    let hit : Op := .deliver (.client 0) (.breakpoint 10 0x1000 4)
    let a := (Past.twoThreads.agent.run (setting ++ [disposal])).run
      [.command (.client 0) .allThreads]
    (Past.twoThreads.agent.run setting).fires hit = [1, 2] ∧ 1 ∉ a.fires hit ∧
      (a.drop 1).sends? hit = a.sends? hit ∧ a.fires hit = [2] := by
  intro here setting disposal hit a
  have hused : Past.twoThreads.agent.Knows 1 := by
    change (Past.twoThreads.agent.tracker.entries.get? 1).isSome
    decide +kernel
  have hgone : ¬ (Past.twoThreads.agent.run (setting ++ [disposal])).Knows 1 := by
    change ¬ ((Past.twoThreads.agent.run (setting ++ [disposal])).tracker.entries.get? 1).isSome
    decide +kernel
  let request : Request := ⟨1, .breakpoint, .none, [.threadOnly 1, .locationOnly 0x1000 4],
    ⟨some (0x1000, 4), (.breakpoint, none)⟩⟩
  obtain ⟨hsilent, hothers⟩ := @lost_identifier_silences_request request 1 Past.twoThreads
    (setting ++ [disposal]) [.command (.client 0) .allThreads] hused hgone (by decide +kernel)
    ⟨.threadOnly 1, List.mem_cons_self, rfl⟩
  exact ⟨by decide +kernel, hsilent hit, (hothers hit rfl).1, by decide +kernel⟩

end DebugAgent
