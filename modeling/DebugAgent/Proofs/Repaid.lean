import DebugAgent.Proofs.Disposal
import DebugAgent.Proofs.Moves
import DebugAgent.Proofs.StepReferences

/-!
# What can be given back

An answer hands out identifiers, and each of them is counted as often as the answer names it.  If the
client gives back what it has just been handed, everything is as it was before the command: an
identifier that was new is gone, the others have the counts that they had, and the global references
made for the new ones are deleted.  Only the references that notifications hold are not given back in
this way.  A request for steps makes one or gives one up, and its answer names no object.

Opening the session hands out nothing, and the notification that it needs holds no reference.
-/

namespace DebugAgent

open DebugAgent.Action Command
open Relation (ReflTransGen)

variable {may : Control → Prop} {α : Type} {a b c : Agent} {ids : List ObjectId}

/-! ### Objects that become known -/

/-- Some objects have become known between two states, by global references made for them, and
nothing else has come of or been lost among the global references and identifiers. -/
structure Learns (a b : Agent) : Prop where
  kept : ∀ {id global}, a.tracker.global? id = some global → b.tracker.global? id = some global
  newer : ∀ {id global}, b.tracker.global? id = some global → a.tracker.global? id = none →
    a.vm.lastRef < global.raw
  globals : ∀ {raw object}, a.vm.refs.get? raw = some ⟨object, .globalRef⟩ →
    b.vm.refs.get? raw = some ⟨object, .globalRef⟩
  known : ∀ {raw object}, b.vm.refs.get? raw = some ⟨object, .globalRef⟩ →
    a.vm.refs.get? raw = some ⟨object, .globalRef⟩ ∨
      ∃ id, b.tracker.global? id = some ⟨raw⟩ ∧ a.tracker.global? id = none

namespace Learns

theorem refl (a : Agent) : Learns a a where
  kept := fun h => h
  newer := fun h hnone => by cases hnone.symm.trans h
  globals := fun h => h
  known := .inl

/-- Neither the identifiers nor the global references change. -/
theorem same (h : Learns a b) (hids : ∀ id, c.tracker.global? id = b.tracker.global? id)
    (hglobals : b.vm.SameGlobals c.vm) : Learns a c where
  kept := fun hid => (hids _).trans (h.kept hid)
  newer := fun hid => h.newer ((hids _).symm.trans hid)
  globals := fun hvalid => (hglobals _ _).mp (h.globals hvalid)
  known := by
    intro raw object hvalid
    simp only [hids]
    exact h.known ((hglobals raw object).mpr hvalid)

/-- One more object becomes known. -/
theorem enrol (h : Learns a b) (hids : IdsBounded b) (hages : a.vm.Ages b.vm)
    (hb : b.vm.RefsBounded) (object : HeapId) : Learns a (b.enrol object) := by
  have hglobal? : ∀ id, (b.enrol object).tracker.global? id =
      if id = b.tracker.nextId then some ⟨b.vm.lastRef + 8⟩ else b.tracker.global? id := by
    intro id
    simpa [Agent.held?] using held?_enrol object b (.identifier id)
  have hnext : b.tracker.global? b.tracker.nextId = none := by
    rw [Tracker.global?, hids.get?_nextId]
    rfl
  have hfresh : a.tracker.global? b.tracker.nextId = none := by
    cases hbefore : a.tracker.global? b.tracker.nextId with
    | none => rfl
    | some global => cases hnext.symm.trans (h.kept hbefore)
  let tagged := b.vm.setTagAt object b.tracker.nextId
  have hrefs := Vm.get?_newRef tagged .globalRef object
  constructor
  · intro id global hid
    rw [hglobal?, if_neg]
    · exact h.kept hid
    · rintro rfl
      cases hfresh.symm.trans hid
  · intro id global hid hnone
    rw [hglobal?] at hid
    split at hid
    · cases hid
      exact Nat.lt_of_le_of_lt hages.lastRef_le (Nat.lt_add_of_pos_right (by decide))
    · exact h.newer hid hnone
  · intro raw target hvalid
    have hbounded : tagged.RefsBounded := hb
    exact Vm.get?_newRef_of_some hbounded (h.globals hvalid) .globalRef
  · intro raw target hvalid
    have hmade := (hrefs raw).symm.trans hvalid
    split at hmade
    · rename_i hraw
      refine .inr ⟨b.tracker.nextId, ?_, hfresh⟩
      rw [hglobal?, if_pos rfl, hraw]
      rfl
    · rcases h.known hmade with hold | ⟨id, hid, hnone⟩
      · exact .inl hold
      · refine .inr ⟨id, ?_, hnone⟩
        rw [hglobal?, if_neg, hid]
        rintro rfl
        cases hnext.symm.trans hid

end Learns

/-- Looking at the machine makes objects known and does nothing else of the kind. -/
theorem learns_of_inspections (ho : InOrder a) (hpos : a.vm.RefsPositive)
    (h : ReflTransGen (Inspection may) a b) : Learns a b := by
  induction h with
  | refl => exact .refl a
  | @tail mid last hinspections hlast ih =>
      obtain ⟨ids, hcounted, -⟩ := counted_of_inspections ho.ids hinspections
      have hevolves := evolves_of_inspections ho.toOrderly hinspections
      have hages := ages_of_evolves hevolves
      have hb := hages.bounded ho.refs
      have hmachine : ∀ {vm}, mid.vm.Conserves vm → Learns a (mid.setVm vm) := fun hconserves =>
        ih.same (fun _ => rfl) (hconserves.sameGlobals (hages.positive hpos))
      cases hlast with
      | glance h => exact hmachine (h.touch.conserves hb)
      | attach _ caller => exact hmachine (Vm.frame_attach caller).conserves
      | halt _ h => exact hmachine (h.touch.conserves hb)
      | resume _ h => exact hmachine (h.touch.conserves hb)
      | recount hentry =>
          exact ih.same (fun id => held?_setReferences hentry _ (.identifier id)) fun _ _ => .rfl
      | enrol => exact ih.enrol hcounted.bounded hages hb _

/-! ### Giving back what has been handed out -/

section GivenBack

variable {requests : List DisposeRequest}

/-- Whoever gives back what has been counted is left with the entries that there were. -/
theorem entries_givenBack (hids : IdsBounded a) (hcounted : Counted ids a b)
    (hkept : ∀ {id global}, a.tracker.global? id = some global → b.tracker.global? id = some global)
    (hall : ∀ id, id ≠ 0 → givenBack requests id = ids.count id) (id : ObjectId) :
    (b.giveBackAll requests).tracker.entries.get? id = a.tracker.entries.get? id := by
  rw [get?_giveBackAll hcounted.bounded]
  by_cases hid : id = 0
  · rw [hid, hids.get?_zero, hcounted.bounded.get?_zero]
    rfl
  have hrose := hcounted.rose id hid
  rw [hall id hid]
  cases hbefore : a.tracker.entries.get? id with
  | none =>
      cases hafter : b.tracker.entries.get? id with
      | none => rfl
      | some later =>
          simp only [Agent.references, hbefore, hafter, Option.map_none, Option.map_some,
            Option.getD_none, Option.getD_some, Nat.zero_add] at hrose
          rw [Option.bind_some, Tracked.less, if_pos (by omega)]
  | some entry =>
      have hglobal : a.tracker.global? id = some entry.global := by simp [Tracker.global?, hbefore]
      obtain ⟨later, hafter, hsame⟩ := Option.map_eq_some_iff.mp (hkept hglobal)
      have hpos := hids.counted hbefore
      simp only [Agent.references, hbefore, hafter, Option.map_some, Option.getD_some] at hrose
      rw [hafter, Option.bind_some, Tracked.less, if_neg (by omega), hrose, Nat.add_sub_cancel,
        hsame]

/-- The global references that go are those of the identifiers that were not in use before. -/
theorem loses_iff (hids : IdsBounded a) (hcounted : Counted ids a b)
    (hkept : ∀ {id global}, a.tracker.global? id = some global → b.tracker.global? id = some global)
    (hall : ∀ id, id ≠ 0 → givenBack requests id = ids.count id) (raw : Nat) :
    b.Loses requests raw ↔
      ∃ id, b.tracker.global? id = some ⟨raw⟩ ∧ a.tracker.global? id = none := by
  have hless : ∀ {id later}, b.tracker.entries.get? id = some later →
      later.less (givenBack requests id) = a.tracker.entries.get? id := by
    intro id later hlater
    rw [← entries_givenBack hids hcounted hkept hall, get?_giveBackAll hcounted.bounded, hlater,
      Option.bind_some]
  constructor
  · rintro ⟨id, later, hlater, hgone, rfl⟩
    refine ⟨id, ?_, ?_⟩
    · rw [Tracker.global?, hlater]
      rfl
    · rw [Tracker.global?, ← hless hlater, hgone]
      rfl
  · rintro ⟨id, hid, hnone⟩
    obtain ⟨later, hlater, hglobal⟩ := Option.map_eq_some_iff.mp hid
    refine ⟨id, later, hlater, ?_, congrArg Handle.raw hglobal⟩
    exact (hless hlater).trans (Option.map_eq_none_iff.mp hnone)

/-- After a look at the machine the global references are those that there were. -/
theorem Learns.sameGlobals (h : Learns a b) (hb : a.vm.RefsBounded) (hids : IdsBounded a)
    (hcounted : Counted ids a b) (hall : ∀ id, id ≠ 0 → givenBack requests id = ids.count id) :
    a.vm.SameGlobals (b.giveBackAll requests).vm := by
  intro raw object
  rw [global_giveBackAll hcounted.bounded, loses_iff hids hcounted h.kept hall]
  constructor
  · intro hvalid
    refine ⟨h.globals hvalid, ?_⟩
    rintro ⟨id, hid, hnone⟩
    exact absurd (h.newer hid hnone) (Nat.not_lt.mpr (hb _ _ hvalid))
  · rintro ⟨hvalid, hleft⟩
    exact (h.known hvalid).resolve_right hleft

/-- If nothing has been handed out, nothing is given back. -/
theorem sameGlobals_of_tracker_eq (hids : IdsBounded a) (htracker : b.tracker = a.tracker)
    (hall : ∀ id, id ≠ 0 → givenBack requests id = 0) :
    b.vm.SameGlobals (b.giveBackAll requests).vm := by
  have hcounted : Counted [] a b := (Counted.refl hids).of_tracker_eq htracker
  intro raw object
  rw [global_giveBackAll hcounted.bounded, loses_iff hids hcounted (fun hid => htracker ▸ hid) hall]
  refine (and_iff_left ?_).symm
  rintro ⟨id, hid, hnone⟩
  rw [htracker, hnone] at hid
  cases hid

end GivenBack

theorem requests_giveBackAll (a : Agent) (requests : List DisposeRequest) :
    (a.giveBackAll requests).requests = a.requests := by
  have hsame := (sameRequests_disposeObjects requests).same (f := Agent.requests)
    SameRequests.requests a
  rwa [Machine.perform_disposeObjects] at hsame

/-! ### Serving and giving back -/

variable {caller : NativeThread} {command : ClientCommand} {reply : Reply}

/-- A command that only looks makes inspections. -/
theorem inspections_of_serve (hlooks : command.onlyLooks)
    (hserve : Agent.serve caller command a = (.ok reply, b)) :
    ReflTransGen (Inspection Control.Any) a b := by
  by_cases hcommand : command = .capabilities
  · subst hcommand
    cases hserve
    exact .refl
  · have hattach : Looks Control.Any (attach caller) := .attach trivial caller
    have hmakes := (hattach.bind fun _ => (looks_ofClient caller hlooks).any).makes a
    rwa [← answer_snd, ← Agent.serve_eq hcommand, hserve] at hmakes

/-- Identifiers are given back by a native thread that can be attached. -/
theorem serve_disposeObjects (hfails : b.vm.attachFails = false) (other : NativeThread)
    (requests : List DisposeRequest) :
    Agent.serve other (.disposeObjects requests) b =
      (.ok .done, (b.setVm (b.vm.attach other).2).giveBackAll requests) := by
  have hdone : (done (Machine.disposeObjects requests)).perform (b.setVm (b.vm.attach other).2) =
      (.ok .done, (b.setVm (b.vm.attach other).2).giveBackAll requests) :=
    perform_bind_of_ok (Machine.perform_disposeObjects requests _) _
  change answer other (done (Machine.disposeObjects requests)) b = _
  rw [answer_of_attaching hfails, hdone]
  rfl

/-- A command that looked leaves no trace among identifiers and global references, once what it
handed out has been given back. -/
theorem repaid_of_inspections (ho : InOrder a) (hpos : a.vm.RefsPositive)
    (h : ReflTransGen (Inspection Control.Any) a b) (hcounted : Counted ids a b)
    {requests : List DisposeRequest} (hall : ∀ id, id ≠ 0 → givenBack requests id = ids.count id)
    (other : NativeThread) :
    let c := (b.setVm (b.vm.attach other).2).giveBackAll requests
    (∀ id, c.tracker.entries.get? id = a.tracker.entries.get? id) ∧ ClaimsOnly False a c := by
  have hattached := h.tail (.attach trivial other)
  have hlearns := learns_of_inspections ho hpos hattached
  have hcounted' : Counted ids a (b.setVm (b.vm.attach other).2) := hcounted.of_tracker_eq rfl
  have hrequests : ((b.setVm (b.vm.attach other).2).giveBackAll requests).requests = a.requests :=
    (requests_giveBackAll _ requests).trans (leaves_of_inspections hattached).1
  refine ⟨entries_givenBack ho.ids hcounted' hlearns.kept hall, .of_same ?_ fun key => ?_⟩
  · exact hlearns.sameGlobals ho.refs ho.ids hcounted' hall
  · simp only [Agent.held?, hrequests]

/-- A command that set or cleared requests has handed out nothing. -/
theorem repaid_of_claims {steps : Prop} (hids : IdsBounded a) (hpos : b.vm.RefsPositive)
    (hclaims : ClaimsOnly steps a b) (htracker : b.tracker = a.tracker)
    {requests : List DisposeRequest} (hall : ∀ id, id ≠ 0 → givenBack requests id = 0)
    (other : NativeThread) :
    let c := (b.setVm (b.vm.attach other).2).giveBackAll requests
    (∀ id, c.tracker.entries.get? id = a.tracker.entries.get? id) ∧ ClaimsOnly steps a c := by
  let near := b.setVm (b.vm.attach other).2
  have hnear : near.tracker = a.tracker := htracker
  have hcounted : Counted [] a near := (Counted.refl hids).of_tracker_eq hnear
  have hattached : ClaimsOnly steps b near :=
    (Unmoved.setVm (Vm.frame_attach other).conserves).claimsOnly hpos
  have hgiven : ClaimsOnly steps near (near.giveBackAll requests) :=
    .of_same (sameGlobals_of_tracker_eq hids hnear hall) fun key => by
      simp only [Agent.held?, requests_giveBackAll]
  refine ⟨entries_givenBack hids hcounted (fun hid => hnear ▸ hid) hall, ?_⟩
  exact (hclaims.trans hattached).trans hgiven

/-- Once what a command handed out has been given back, the entries of identifiers are those from
before the command, and the global references are unless the command was for steps. -/
theorem repaid_of_serve (past : Past) (hkeeps : ∀ requests, command ≠ .disposeObjects requests)
    (hserve : Agent.serve caller command past.agent = (.ok reply, b)) {requests : List DisposeRequest}
    (hall : ∀ id, id ≠ 0 → givenBack requests id = reply.ids.count id) (other : NativeThread) :
    let c := (b.setVm (b.vm.attach other).2).giveBackAll requests
    (∀ id, c.tracker.entries.get? id = past.agent.tracker.entries.get? id) ∧
      ClaimsOnly (command.forSteps = true) past.agent c := by
  have ho : InOrder past.agent := past.inOrder
  have hcounted := counted_serve ho.ids caller hkeeps hserve
  intro c
  cases hlooks : command.onlyLooks with
  | true =>
      obtain ⟨hentries, hclaims⟩ := repaid_of_inspections ho past.refsPositive
        (inspections_of_serve hlooks hserve) hcounted hall other
      exact ⟨hentries, hclaims.mono False.elim⟩
  | false =>
      have hnone : command.names = false := by
        cases command <;> first | rfl | cases hlooks
      have hcommand : command ≠ .capabilities := by
        rintro rfl
        cases hlooks
      have hpos := past.refsPositive_apply (.command caller command)
      have htracker := (keepsIds_ofClient caller hkeeps hnone).answer caller past.agent
      have hclaims := (claims_ofClient caller hkeeps hlooks).answer past.accountable caller
      rw [Agent.apply, hserve] at hpos
      rw [← Agent.serve_eq hcommand, hserve] at htracker hclaims
      -- nothing has been counted, so the answer names nothing
      refine repaid_of_claims ho.ids hpos hclaims htracker (fun id hid => ?_) other
      have hrose := hcounted.rose id hid
      rw [Agent.references, htracker, ← Agent.references] at hrose
      rw [hall id hid]
      exact (Nat.left_eq_add.mp hrose)

/-- Opening the session has handed out nothing, and leaves no trace among identifiers and global
references. -/
theorem repaid_of_opening (past : Past) {canDeliver : Bool}
    (hopens : Agent.attach caller canDeliver past.agent = (.ok (), b))
    (htracker : b.tracker = past.agent.tracker) {requests : List DisposeRequest}
    (hall : ∀ id, id ≠ 0 → givenBack requests id = 0) (other : NativeThread) :
    let c := (b.setVm (b.vm.attach other).2).giveBackAll requests
    (∀ id, c.tracker.entries.get? id = past.agent.tracker.entries.get? id) ∧
      ClaimsOnly False past.agent c := by
  have hpos := past.refsPositive_apply (.attach caller canDeliver)
  have hclaims := (Registration.claims_opening canDeliver).answer past.accountable caller
  rw [Agent.apply, hopens] at hpos
  rw [← Agent.attach, hopens] at hclaims
  exact repaid_of_claims past.inOrder.ids hpos hclaims htracker hall other

/-- A command that gives nothing back has counted each identifier as often as its answer names it.  So
what it has handed out can be given back right after it, by any native thread.  This succeeds where
native threads can be attached, which only the capabilities are told without.  Then the identifiers
and their counts are those from before the command, and so are the global references that no
notification holds.  All global references are, unless the command sets or clears a request for
steps.

Opening the session raises no count.  Whoever gives nothing back right after it succeeds, and finds
the identifiers, their counts and all global references as they were before. -/
theorem handed_out_can_be_given_back (past : Past) (caller : NativeThread) :
    let a := past.agent
    (∀ {command : ClientCommand} {reply : Reply} {b : Agent},
      (∀ requests, command ≠ .disposeObjects requests) →
      Agent.serve caller command a = (.ok reply, b) →
      (∀ id, id ≠ 0 → b.references id = a.references id + reply.ids.count id) ∧
        ∀ (other : NativeThread) (requests : List DisposeRequest),
          (∀ id, id ≠ 0 → givenBack requests id = reply.ids.count id) →
          (command = .capabilities → a.vm.attachFails = false) →
          ∃ c, Agent.serve other (.disposeObjects requests) b = (.ok .done, c) ∧
            (∀ id, c.tracker.entries.get? id = a.tracker.entries.get? id) ∧
            (∀ raw object, a.Unclaimed raw object ↔ c.Unclaimed raw object) ∧
            (command.forSteps = false →
              a.vm.SameGlobals c.vm ∧ c.vm.globalCount = a.vm.globalCount)) ∧
      ∀ {canDeliver : Bool} {b : Agent}, Agent.attach caller canDeliver a = (.ok (), b) →
        (∀ id, b.references id = a.references id) ∧
          ∀ (other : NativeThread) (requests : List DisposeRequest),
            (∀ id, id ≠ 0 → givenBack requests id = 0) →
            ∃ c, Agent.serve other (.disposeObjects requests) b = (.ok .done, c) ∧
              (∀ id, c.tracker.entries.get? id = a.tracker.entries.get? id) ∧
              (∀ raw object, a.Unclaimed raw object ↔ c.Unclaimed raw object) ∧
              a.vm.SameGlobals c.vm ∧ c.vm.globalCount = a.vm.globalCount := by
  intro a
  constructor
  · intro command reply b hkeeps hserve
    refine ⟨(counted_serve past.inOrder.ids caller hkeeps hserve).rose, ?_⟩
    intro other requests hall hattaches
    obtain ⟨hentries, hclaims⟩ := repaid_of_serve past hkeeps hserve hall other
    have hfails : b.vm.attachFails = false := by
      by_cases hcommand : command = .capabilities
      · have hworks := hattaches hcommand
        subst hcommand
        cases hserve
        exact hworks
      · rw [Agent.serve_eq hcommand] at hserve
        exact attaches_of_answer (attachesAlike_ofClient caller command) hserve
    refine ⟨_, serve_disposeObjects hfails other requests, hentries, hclaims.unclaimed,
      fun hno => ?_⟩
    have hglobals := hclaims.globals (Bool.eq_false_iff.mp hno)
    exact ⟨hglobals, hglobals.globalCount⟩
  · intro canDeliver b hopens
    have htracker := (keepsIds_opening canDeliver).answer caller a
    rw [← Agent.attach, hopens] at htracker
    refine ⟨fun id => by rw [Agent.references, htracker, ← Agent.references], ?_⟩
    intro other requests hall
    obtain ⟨hentries, hclaims⟩ := repaid_of_opening past hopens htracker hall other
    have hfails := attaches_of_answer (attachesAlike_opening canDeliver) hopens
    have hglobals := hclaims.globals not_false
    exact ⟨_, serve_disposeObjects hfails other requests, hentries, hclaims.unclaimed, hglobals,
      hglobals.globalCount⟩

/-- The client lists the threads and gives back what it has been told: nothing is left of it.  After
it has opened the session there is nothing to give back, so the empty list does. -/
theorem listed_threads_given_back :
    let past : Past := ⟨[.spawnThread "worker"], {}, []⟩
    let outcome := Agent.serve (.client 0) .allThreads past.agent
    let opened := Agent.attach (.client 0) true past.agent
    outcome.1 = .ok (.objects [1, 2]) ∧ outcome.2.references 2 = 1 ∧ outcome.2.vm.globalCount = 2 ∧
      (∃ c, Agent.serve (.client 1) (.disposeObjects [⟨1, 1⟩, ⟨2, 1⟩]) outcome.2 = (.ok .done, c) ∧
        (∀ id, c.tracker.entries.get? id = none) ∧ c.vm.globalCount = 0) ∧
      opened.1 = .ok () ∧
      ∃ c, Agent.serve (.client 1) (.disposeObjects []) opened.2 = (.ok .done, c) ∧
        (∀ id, c.tracker.entries.get? id = none) ∧ c.vm.globalCount = 0 := by
  intro past outcome opened
  have hanswer : outcome.1 = .ok (.objects [1, 2]) := by decide +kernel
  have hserve : outcome = (.ok (.objects [1, 2]), outcome.2) := by rw [← hanswer]
  have hopened : opened.1 = .ok () := by decide +kernel
  have hopens : opened = (.ok (), opened.2) := by rw [← hopened]
  obtain ⟨hcommands, hopening⟩ := handed_out_can_be_given_back past (.client 0)
  obtain ⟨hcounts, hgiven⟩ := hcommands (fun _ => ClientCommand.noConfusion) hserve
  have htotals : ∀ id, id ≠ 0 → givenBack [⟨1, 1⟩, ⟨2, 1⟩] id = (Reply.objects [1, 2]).ids.count id := by
    intro id _
    simp only [givenBack, Reply.ids, List.count_cons, List.count_nil, beq_iff_eq]
    omega
  obtain ⟨c, hdisposed, hentries, -, hglobals⟩ :=
    hgiven (.client 1) [⟨1, 1⟩, ⟨2, 1⟩] htotals fun h => ClientCommand.noConfusion h
  obtain ⟨d, hnothing, hsame, -, -, hnone⟩ := (hopening hopens).2 (.client 1) [] fun _ _ => rfl
  have hcount : past.agent.vm.globalCount = 0 := by decide +kernel
  exact ⟨hanswer, hcounts 2 (by decide), by decide +kernel,
    ⟨c, hdisposed, hentries, (hglobals rfl).2.trans hcount⟩, hopened, d, hnothing, hsame,
    hnone.trans hcount⟩

/-- Whatever the command hands out can be given back right after it, and then the identifiers, their
counts and the number of global references are what they were. -/
def Agent.Repayable (a : Agent) (caller : NativeThread) (command : ClientCommand) : Prop :=
  ∀ reply b, Agent.serve caller command a = (.ok reply, b) →
    ∀ (other : NativeThread) (requests : List DisposeRequest),
      (∀ id, id ≠ 0 → givenBack requests id = reply.ids.count id) →
      ∃ c, Agent.serve other (.disposeObjects requests) b = (.ok .done, c) ∧
        (∀ id, c.tracker.entries.get? id = a.tracker.entries.get? id) ∧
        c.vm.globalCount = a.vm.globalCount

/-- A thread runs a method.  The client knows the thread by the identifier 1. -/
def running : Past :=
  ⟨[.defineClass "LMain;", .addMethod 9 { name := "main", signature := "()V" },
      .spawnThread "worker", .pushFrame 10 4096 0], {},
    [.op (.command (.client 0) .allThreads)]⟩

/-- No native thread can be attached. -/
def unattachable : Past := ⟨[.setAttachFails true], {}, []⟩

/-- A request for steps keeps a reference to its thread for as long as it is registered.  Where no
native thread can be attached, the capabilities are told, but nothing can be given back. -/
theorem not_always_repayable :
    ¬ running.agent.Repayable (.client 0) (.setEvent 1 .none [.step 1 .min .into]) ∧
      ¬ unattachable.agent.Repayable (.client 0) .capabilities := by
  constructor
  · intro hrepayable
    let outcome := Agent.serve (.client 0) (.setEvent 1 .none [.step 1 .min .into]) running.agent
    have hanswer : outcome.1 = .ok (.request 1) := by decide +kernel
    have hserve : outcome = (.ok (.request 1), outcome.2) := by rw [← hanswer]
    obtain ⟨c, hdisposed, -, hcount⟩ := hrepayable _ _ hserve (.client 0) [] fun _ _ => rfl
    have hmore : (Agent.serve (.client 0) (.disposeObjects []) outcome.2).2.vm.globalCount =
        running.agent.vm.globalCount + 1 := by decide +kernel
    rw [hdisposed] at hmore
    exact Nat.succ_ne_self _ (hmore.symm.trans hcount)
  · intro hrepayable
    obtain ⟨c, hdisposed, -, -⟩ :=
      hrepayable _ unattachable.agent rfl (.client 0) [] fun _ _ => rfl
    have hrefused : (Agent.serve (.client 0) (.disposeObjects []) unattachable.agent).1 =
        .error .internal := by decide +kernel
    rw [hdisposed] at hrefused
    cases hrefused

end DebugAgent
