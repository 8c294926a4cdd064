import DebugAgent.Proofs.Repaid
import DebugAgent.Proofs.Tables

/-!
# Identifiers given back in any order

What a list of requests to give identifiers back comes to depends on the total for each identifier
alone.  Working off a list only takes entries and references out of their tables or lowers a count, so
the order of what is left is the order that there was, and the totals say what is left.  Two lists
with the same totals therefore end in the same tables, whether one is the other in another order, or
split into smaller pieces, or issued as several commands by several threads.
-/

namespace DebugAgent

open DebugAgent.Action Command Tracking

variable {a b c : Agent}

/-! ### Totals -/

theorem givenBack_append (requests others : List DisposeRequest) (id : ObjectId) :
    givenBack (requests ++ others) id = givenBack requests id + givenBack others id := by
  induction requests with
  | nil => exact (Nat.zero_add _).symm
  | cons request requests ih => simp only [List.cons_append, givenBack, ih, Nat.add_assoc]

/-- The order of the requests makes no difference to the totals. -/
theorem givenBack_perm {requests others : List DisposeRequest} (h : requests.Perm others)
    (id : ObjectId) : givenBack requests id = givenBack others id := by
  induction h with
  | nil => rfl
  | cons request _ ih => rw [givenBack, givenBack, ih]
  | swap first second rest => simp only [givenBack, Nat.add_left_comm]
  | trans _ _ ih₁ ih₂ => exact ih₁.trans ih₂

/-- A request may be split into two, wherever it stands. -/
theorem givenBack_split (before after : List DisposeRequest) (object : ObjectId) (m n : Nat)
    (id : ObjectId) :
    givenBack (before ++ ⟨object, m⟩ :: ⟨object, n⟩ :: after) id =
      givenBack (before ++ ⟨object, m + n⟩ :: after) id := by
  simp only [givenBack_append, givenBack]
  split <;> omega

/-! ### What is left stays in order -/

/-- Entries of tables are taken out or changed in their place, and nothing else happens. -/
structure Agent.Sheds (a b : Agent) : Prop where
  ids : b.tracker.entries.keys.Sublist a.tracker.entries.keys
  refs : b.vm.refs.keys.Sublist a.vm.refs.keys
  rest : b = { a with
    tracker := { a.tracker with entries := b.tracker.entries }
    vm := { a.vm with refs := b.vm.refs } }

theorem Agent.Sheds.refl (a : Agent) : a.Sheds a := ⟨.refl _, .refl _, rfl⟩

theorem Agent.Sheds.trans (h : a.Sheds b) (h' : b.Sheds c) : a.Sheds c where
  ids := h'.ids.trans h.ids
  refs := h'.refs.trans h.refs
  rest := by rw [h'.rest, h.rest]

theorem Vm.keys_deleteRef_sublist (vm : Vm) (kind : RefKind) (h : Handle) :
    (vm.deleteRef kind h).refs.keys.Sublist vm.refs.keys := by
  rw [deleteRef]
  split
  · split
    · exact Table.keys_erase_sublist _ _
    · exact .refl _
  · exact .refl _

theorem sheds_giveBack (a : Agent) (request : DisposeRequest) : a.Sheds (a.giveBack request) := by
  rcases giveBack_cases a request with
    ⟨-, heq⟩ | ⟨entry, hentry, ⟨-, heq⟩ | ⟨left, -, -, heq⟩⟩
  · rw [heq]
    exact .refl a
  · obtain ⟨refs, hrefs⟩ := Vm.deleteRef_eq a.vm .globalRef entry.global
    have hkeys := Vm.keys_deleteRef_sublist a.vm .globalRef entry.global
    rw [heq, forget, Vm.deleteGlobalRef]
    rw [hrefs] at hkeys ⊢
    exact ⟨Table.keys_erase_sublist _ _, hkeys, rfl⟩
  · rw [heq]
    exact ⟨(Table.keys_insert_of_some hentry _).symm ▸ .refl _, .refl _, rfl⟩

theorem sheds_giveBackAll (a : Agent) (requests : List DisposeRequest) :
    a.Sheds (a.giveBackAll requests) := by
  induction requests generalizing a with
  | nil => exact .refl a
  | cons request requests ih => exact (sheds_giveBack a request).trans (ih _)

/-! ### The references that are left -/

theorem local_giveBack (a : Agent) (request : DisposeRequest) (raw : Nat)
    (object : HeapId) :
    (a.giveBack request).vm.refs.get? raw = some ⟨object, .localRef⟩ ↔
      a.vm.refs.get? raw = some ⟨object, .localRef⟩ := by
  rcases giveBack_cases a request with
    ⟨-, heq⟩ | ⟨entry, -, ⟨-, heq⟩ | ⟨left, -, -, heq⟩⟩
  · rw [heq]
  · rw [heq, forget]
    exact ⟨Vm.get?_deleteRef, fun href => Vm.get?_deleteRef_of_ne href (.inl (by simp))⟩
  · rw [heq]

theorem local_giveBackAll (a : Agent) (requests : List DisposeRequest) (raw : Nat)
    (object : HeapId) :
    (a.giveBackAll requests).vm.refs.get? raw = some ⟨object, .localRef⟩ ↔
      a.vm.refs.get? raw = some ⟨object, .localRef⟩ := by
  induction requests generalizing a with
  | nil => rfl
  | cons request requests ih => exact (ih _).trans (local_giveBack a request raw object)

/-- The references that are left are all but the global ones that went with their identifiers. -/
theorem refs_giveBackAll (hids : IdsBounded a) (requests : List DisposeRequest) (raw : Nat)
    (ref : Ref) :
    (a.giveBackAll requests).vm.refs.get? raw = some ref ↔
      a.vm.refs.get? raw = some ref ∧ ¬ (ref.kind = .globalRef ∧ a.Loses requests raw) := by
  obtain ⟨object, kind⟩ := ref
  cases kind with
  | localRef =>
      rw [local_giveBackAll]
      exact (and_iff_left fun h => by cases h.1).symm
  | globalRef =>
      rw [global_giveBackAll hids]
      simp

/-! ### The same totals -/

/-- Lists that give back as much of each identifier in use come to the same. -/
theorem giveBackAll_eq (hids : IdsBounded a) {requests others : List DisposeRequest}
    (htotals : ∀ id entry, a.tracker.entries.get? id = some entry →
      givenBack others id = givenBack requests id) :
    a.giveBackAll others = a.giveBackAll requests := by
  have hothers := sheds_giveBackAll a others
  have hrequests := sheds_giveBackAll a requests
  have hentries : (a.giveBackAll others).tracker.entries =
      (a.giveBackAll requests).tracker.entries := by
    refine Table.eq_of_sublist hothers.ids hrequests.ids fun id => ?_
    rw [get?_giveBackAll hids, get?_giveBackAll hids]
    cases hentry : a.tracker.entries.get? id with
    | none => rfl
    | some entry => rw [htotals id entry hentry]
  have hloses : ∀ raw, a.Loses others raw ↔ a.Loses requests raw := fun raw =>
    exists_congr fun id => exists_congr fun entry => and_congr_right fun hentry => by
      rw [htotals id entry hentry]
  have hrefs : (a.giveBackAll others).vm.refs = (a.giveBackAll requests).vm.refs := by
    refine Table.eq_of_sublist hothers.refs hrequests.refs fun raw => Option.ext fun ref => ?_
    rw [refs_giveBackAll hids, refs_giveBackAll hids, hloses]
  rw [hothers.rest, hrequests.rest, hentries, hrefs]

/-! ### Several commands -/

/-- Giving back changes tables alike that are alike. -/
theorem giveBack_congr (htracker : b.tracker = a.tracker) (hrefs : b.vm.refs = a.vm.refs)
    (request : DisposeRequest) :
    (b.giveBack request).tracker = (a.giveBack request).tracker ∧
      (b.giveBack request).vm.refs = (a.giveBack request).vm.refs := by
  rw [Agent.giveBack, Agent.giveBack, htracker]
  cases a.tracker.entries.get? request.objectId with
  | none => exact ⟨htracker, hrefs⟩
  | some entry =>
      dsimp only
      split
      · refine ⟨congrArg (Tracker.remove · request.objectId) htracker, ?_⟩
        rw [forget, forget, Vm.deleteGlobalRef, Vm.deleteGlobalRef, Vm.deleteRef, Vm.deleteRef, hrefs]
        split
        · split
          · rfl
          · exact hrefs
        · exact hrefs
      · exact ⟨rfl, hrefs⟩

theorem giveBackAll_congr (htracker : b.tracker = a.tracker) (hrefs : b.vm.refs = a.vm.refs)
    (requests : List DisposeRequest) :
    (b.giveBackAll requests).tracker = (a.giveBackAll requests).tracker ∧
      (b.giveBackAll requests).vm.refs = (a.giveBackAll requests).vm.refs := by
  induction requests generalizing a b with
  | nil => exact ⟨htracker, hrefs⟩
  | cons request requests ih =>
      obtain ⟨htracker, hrefs⟩ := giveBack_congr htracker hrefs request
      exact ih htracker hrefs

theorem giveBackAll_append (a : Agent) (requests others : List DisposeRequest) :
    a.giveBackAll (requests ++ others) = (a.giveBackAll requests).giveBackAll others :=
  List.foldl_append

/-- The requests to give identifiers back that clients issue one after another. -/
def disposals (commands : List (NativeThread × List DisposeRequest)) : List Op :=
  commands.map fun command => .command command.1 (.disposeObjects command.2)

/-- Several commands give back what a single one with all their requests does. -/
theorem run_disposals (hattaches : a.vm.attachFails = false)
    (commands : List (NativeThread × List DisposeRequest)) :
    (a.run (disposals commands)).tracker =
        (a.giveBackAll (commands.flatMap Prod.snd)).tracker ∧
      (a.run (disposals commands)).vm.refs =
        (a.giveBackAll (commands.flatMap Prod.snd)).vm.refs := by
  induction commands generalizing a with
  | nil => exact ⟨rfl, rfl⟩
  | cons command commands ih =>
      obtain ⟨caller, requests⟩ := command
      let near := a.setVm (a.vm.attach caller).2
      have happly : a.apply (.command caller (.disposeObjects requests)) =
          near.giveBackAll requests := by
        rw [Agent.apply, serve_disposeObjects hattaches]
      have hattaches' : (near.giveBackAll requests).vm.attachFails = false := by
        rw [(sheds_giveBackAll near requests).rest]
        exact (attachFails_attach a.vm caller).trans hattaches
      obtain ⟨htracker, hrefs⟩ := giveBackAll_congr (a := a) (b := near) rfl
        (Vm.frame_attach caller).refs requests
      obtain ⟨hlaterTracker, hlaterRefs⟩ :=
        giveBackAll_congr htracker hrefs (commands.flatMap Prod.snd)
      obtain ⟨hrunTracker, hrunRefs⟩ := ih hattaches'
      rw [disposals, List.map_cons, Agent.run_cons, happly, List.flatMap_cons, giveBackAll_append]
      exact ⟨hrunTracker.trans hlaterTracker, hrunRefs.trans hlaterRefs⟩

/-! ### The outcome -/

/-- Giving identifiers back takes from each identifier the total of what the list gives back of it.
It is gone if that is all there is, with the global reference that it is held by, and counts the
difference otherwise.  Identifiers that are not in use are skipped.  Nothing else goes, so that any
commands with the same totals for the identifiers in use end in the same tables.  They have the same
totals if one list is the other in another order or has entries split, and joined lists have the sums
of their totals. -/
theorem disposal_by_totals (past : Past) (hattaches : past.agent.vm.attachFails = false)
    (caller : NativeThread) (requests : List DisposeRequest) :
    let a := past.agent
    let outcome := Agent.serve caller (.disposeObjects requests) a
    let b := outcome.2
    outcome.1 = .ok .done ∧
    (∀ id entry, a.tracker.entries.get? id = some entry →
      b.tracker.entries.get? id =
        if entry.references ≤ givenBack requests id then none
        else some { entry with references := entry.references - givenBack requests id }) ∧
    (∀ id, a.tracker.entries.get? id = none → b.tracker.entries.get? id = none) ∧
    (∀ raw ref, b.vm.refs.get? raw = some ref ↔ a.vm.refs.get? raw = some ref ∧
      ¬ (ref.kind = .globalRef ∧ ∃ id entry, a.tracker.entries.get? id = some entry ∧
        b.tracker.entries.get? id = none ∧ entry.global.raw = raw)) ∧
    (∀ commands : List (NativeThread × List DisposeRequest),
      (∀ id entry, a.tracker.entries.get? id = some entry →
        givenBack (commands.flatMap Prod.snd) id = givenBack requests id) →
      let c := a.run (disposals commands)
      c.tracker = b.tracker ∧ c.vm.refs = b.vm.refs ∧ c.vm.globalCount = b.vm.globalCount) ∧
    (∀ others, others.Perm requests → ∀ id, givenBack others id = givenBack requests id) ∧
    (∀ before after object m n id,
      givenBack (before ++ ⟨object, m⟩ :: ⟨object, n⟩ :: after) id =
        givenBack (before ++ ⟨object, m + n⟩ :: after) id) ∧
    ∀ others id, givenBack (requests ++ others) id = givenBack requests id + givenBack others id := by
  intro a outcome b
  have hids : IdsBounded a := past.inOrder.ids
  have hreply : outcome.1 = .ok .done := by
    change (Agent.serve caller (.disposeObjects requests) a).1 = _
    rw [serve_disposeObjects hattaches]
  -- a single command is a list of commands with the same totals
  obtain ⟨htracker, hrefs⟩ : b.tracker = (a.giveBackAll requests).tracker ∧
      b.vm.refs = (a.giveBackAll requests).vm.refs := by
    have hrun := run_disposals hattaches [(caller, requests)]
    rwa [List.flatMap_singleton] at hrun
  have hentries : ∀ id, b.tracker.entries.get? id =
      (a.tracker.entries.get? id).bind (·.less (givenBack requests id)) := by
    intro id
    rw [htracker, get?_giveBackAll hids]
  refine ⟨hreply, ?_, ?_, ?_, ?_, fun others hperm => givenBack_perm hperm, givenBack_split,
    givenBack_append requests⟩
  · intro id entry hentry
    rw [hentries, hentry, Option.bind_some, Tracked.less]
    simp only [Nat.sub_eq_zero_iff_le]
  · intro id hnone
    rw [hentries, hnone, Option.bind_none]
  · intro raw ref
    rw [hrefs, refs_giveBackAll hids, Agent.Loses]
    refine and_congr_right fun _ => not_congr (and_congr_right fun _ => ?_)
    refine exists_congr fun id => exists_congr fun entry => and_congr_right fun hentry => ?_
    rw [hentries, hentry, Option.bind_some]
  · intro commands htotals c
    have hsame := giveBackAll_eq hids htotals
    obtain ⟨hrunTracker, hrunRefs⟩ := run_disposals hattaches commands
    have hlast : c.vm.refs = b.vm.refs := by rw [hrunRefs, hsame, hrefs]
    refine ⟨by rw [hrunTracker, hsame, htracker], hlast, ?_⟩
    rw [Vm.globalCount, Vm.globalCount, Vm.refCount, Vm.refCount, hlast]

/-- Two threads and the one that issues the commands, listed three times. -/
def listedThrice : Past :=
  ⟨[.spawnThread "worker", .spawnThread "idle"], {},
    [.op (.command (.client 0) .allThreads), .op (.command (.client 0) .allThreads),
      .op (.command (.client 0) .allThreads)]⟩

/-- The first thread is given back twice and the second more often than it was handed out, along with
an identifier that is not in use.  Three commands that do so piece by piece come to the same. -/
theorem threads_given_back : listedThrice.agent.vm.attachFails = false ∧
    let a := listedThrice.agent
    let b := (Agent.serve (.client 0) (.disposeObjects [⟨1, 1⟩, ⟨7, 1⟩, ⟨2, 5⟩, ⟨1, 1⟩]) a).2
    let c := a.run (disposals [(.client 1, [⟨2, 4⟩]), (.client 0, []), (.client 2, [⟨1, 2⟩, ⟨2, 1⟩])])
    (b.tracker.entries.get? 1).map Tracked.references = some 1 ∧
    (b.tracker.entries.get? 2).isNone ∧
    (b.tracker.entries.get? 3).map Tracked.references = some 3 ∧
    c.tracker = b.tracker ∧ c.vm.refs = b.vm.refs ∧ c.vm.globalCount = b.vm.globalCount := by
  have hattaches : listedThrice.agent.vm.attachFails = false := by decide +kernel
  have hone : listedThrice.agent.tracker.entries.get? 1 = some ⟨⟨4120⟩, 3⟩ := by decide +kernel
  have htwo : listedThrice.agent.tracker.entries.get? 2 = some ⟨⟨4128⟩, 3⟩ := by decide +kernel
  have hthree : listedThrice.agent.tracker.entries.get? 3 = some ⟨⟨4136⟩, 3⟩ := by decide +kernel
  have hunused : listedThrice.agent.tracker.entries.get? 7 = none := by decide +kernel
  obtain ⟨-, hlive, -, -, hsame, -⟩ := disposal_by_totals listedThrice hattaches (.client 0)
    [⟨1, 1⟩, ⟨7, 1⟩, ⟨2, 5⟩, ⟨1, 1⟩]
  refine ⟨hattaches, ?_, ?_, ?_, hsame _ fun id entry hentry => ?_⟩
  · rw [hlive 1 _ hone]
    rfl
  · rw [hlive 2 _ htwo]
    rfl
  · rw [hlive 3 _ hthree]
    rfl
  · have hused : id ≠ 7 := by
      rintro rfl
      cases hunused.symm.trans hentry
    simp only [List.flatMap_cons, List.flatMap_nil, List.cons_append, List.nil_append,
      List.append_nil, givenBack, if_neg hused.symm]
    split <;> split <;> omega

end DebugAgent
