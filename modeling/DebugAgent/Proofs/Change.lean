import DebugAgent.Proofs.Commands
import DebugAgent.Proofs.Matching
import DebugAgent.Proofs.Registration

/-!
# What operations change

Whatever the client asks for and whatever happens in the machine, the agent's state changes in small
steps of few kinds.  `Change` lists them, with what is known when each is made; `Engagement` is the
last step of an operation that takes on a new obligation, a request or a session.  Every operation
on an orderly state is a series of changes, possibly with an engagement at its end, so that an
invariant of runs is proved change by change.
-/

namespace DebugAgent

open DebugAgent.Action Command Registration
open Relation (ReflTransGen)

/-- A change of the agent's state that takes on no obligation. -/
inductive Change (a : Agent) : Agent → Prop where
  | machine {vm} (hkeeps : a.vm.Keeps vm) : Change a (a.setVm vm)
  /-- An identifier in use is handed out once more, or given back in part. -/
  | recount {id entry} (hentry : a.tracker.entries.get? id = some entry) {count : Nat}
      (hpos : 0 < count) :
      Change a { a with tracker := a.tracker.setReferences id entry count }
  | enrol {object tag} (htag : a.vm.tagAt? object = some tag)
      (hnew : 0 < tag → a.tracker.entries.get? tag.toNat = none) : Change a (a.enrol object)
  | forget {id entry} (hentry : a.tracker.entries.get? id = some entry) :
      Change a (Tracking.forget id entry a)
  | advance (kind : EventKind) (ctx : Context) : Change a (a.advance kind ctx)
  | remove {request b c} (hmem : request ∈ a.requests.requests)
      (hreleases : Releases (a.dropRequest request.id) request.registration.breakpoint b)
      (hdisables : Disables b request.registration.notification c) : Change a c
  | session (f : Session → Session) : Change a { a with session := a.session.map f }

/-- A new obligation of the agent. -/
inductive Engagement (a : Agent) : Agent → Prop where
  | request {kind policy filters registration b c}
      (hneeded : needed kind filters = .ok registration)
      (hholds : Holds a registration.breakpoint b)
      (henables : Enables b registration.notification c) :
      Engagement a { c with requests := c.requests.add kind policy filters registration }
  | session {b} (hnone : a.session = none) (henables : Enables a (.vmDeath, none) b) :
      Engagement a { b with session := some {} }

/-- A change that leads no global reference astray, and takes an identifier into use only where
objects can be tagged. -/
structure TidyChange (a b : Agent) : Prop where
  change : Change a b
  tidy : Tidy a b
  granted : b.tracker.nextId = a.tracker.nextId ∨ a.vm.grants Capabilities.canTagObjects

/-- One state comes from another by tidy changes. -/
def Evolves : Agent → Agent → Prop := ReflTransGen TidyChange

/-- One state comes from another by tidy changes and perhaps an engagement at the end, which is tidy
as well. -/
def Leads (a b : Agent) : Prop := Evolves a b ∨ ∃ c, Evolves a c ∧ Engagement c b ∧ Tidy c b

/-- One state comes later than another, at the end of an operation or in the middle of one. -/
def Unfolds : Agent → Agent → Prop := ReflTransGen fun a b => Change a b ∨ Engagement a b

/-! ### Orderly states -/

/-- References have numbers up to the newest, requests have identifiers in order, and nothing is
counted that is not there. -/
structure Orderly (a : Agent) : Prop where
  refs : a.vm.RefsBounded
  counts : CountsPositive a
  sorted : a.requests.requests.Pairwise (·.id < ·.id)
  fresh : ∀ request ∈ a.requests.requests, request.id < a.requests.nextId

section Orderly

variable {a b : Agent}

theorem orderly_start {vm : Vm} (hb : vm.RefsBounded) (config : Config) :
    Orderly (Agent.start vm config) where
  refs := hb
  counts := fun position h => by cases h
  sorted := .nil
  fresh := fun request hmem => by cases hmem

/-- References grow old with every change. -/
theorem Change.ages (h : Change a b) : a.vm.Ages b.vm := by
  cases h with
  | machine hkeeps => exact hkeeps.toAges
  | recount | advance | session => exact .refl a.vm
  | @enrol object tag htag hnew =>
      let tagged := a.vm.setTagAt object a.tracker.nextId
      have htagged : a.vm.Ages tagged := .of_refs_eq rfl rfl
      exact htagged.trans (Vm.ages_newRef tagged .globalRef object)
  | forget hentry => exact Vm.ages_deleteRef a.vm .globalRef _
  | remove hmem hreleases hdisables =>
      obtain ⟨set, counts, rfl⟩ := hreleases.eq
      obtain ⟨thread, enabled, held, rfl⟩ := hdisables.eq
      let told := (a.vm.putBreakpoints set).putNotifications enabled
      have htold : a.vm.Ages told := .of_refs_eq rfl rfl
      exact htold.trans (ages_freed thread told)

theorem Orderly.change (ho : Orderly a) (h : Change a b) : Orderly b := by
  have hrefs := h.ages.bounded ho.refs
  cases h with
  | machine | recount | enrol | forget | session => exact ⟨hrefs, ho.counts, ho.sorted, ho.fresh⟩
  | advance kind ctx =>
      have hid : ∀ request : Request, (if request.kind = kind && a.requestFires ctx request then
          request.advance ctx else request).id = request.id := by
        intro request
        split <;> rfl
      refine ⟨hrefs, ho.counts, ?_, ?_⟩
      · exact List.pairwise_map.mpr (ho.sorted.imp fun hlt => by rwa [hid, hid])
      · intro request hmem
        obtain ⟨r, hr, rfl⟩ := List.mem_map.mp hmem
        rw [hid]
        exact ho.fresh r hr
  | remove hmem hreleases hdisables =>
      have hcounts := hreleases.countsPositive ho.counts
      obtain ⟨set, counts, rfl⟩ := hreleases.eq
      obtain ⟨thread, enabled, held, rfl⟩ := hdisables.eq
      exact ⟨hrefs, hcounts, ho.sorted.filter _,
        fun request hmem => ho.fresh request (List.mem_filter.mp hmem |>.1)⟩

theorem Engagement.ages (h : Engagement a b) : a.vm.Ages b.vm := by
  cases h with
  | request hneeded hholds henables => exact hholds.ages.trans henables.ages
  | session hnone henables => exact henables.ages

theorem Orderly.engagement (ho : Orderly a) (h : Engagement a b) : Orderly b := by
  have hrefs := h.ages.bounded ho.refs
  cases h with
  | request hneeded hholds henables =>
      have hcounts := hholds.countsPositive ho.counts
      obtain ⟨set, counts, rfl⟩ := hholds.eq
      obtain ⟨vm, enabled, held, hkeeps, rfl⟩ := henables.eq
      refine ⟨hrefs, hcounts, ?_, ?_⟩
      · refine List.pairwise_append.mpr ⟨ho.sorted, List.pairwise_singleton _ _, ?_⟩
        intro request hmem last hlast
        rw [List.mem_singleton.mp hlast]
        exact ho.fresh request hmem
      · intro request hmem
        show request.id < a.requests.nextId + 1
        rcases List.mem_append.mp hmem with hmem | hlast
        · exact Int.lt_trans (ho.fresh request hmem) (Int.lt_succ a.requests.nextId)
        · rw [List.mem_singleton.mp hlast]
          exact Int.lt_succ a.requests.nextId
  | session hnone henables =>
      obtain ⟨vm, enabled, held, hkeeps, rfl⟩ := henables.eq
      exact ⟨hrefs, ho.counts, ho.sorted, ho.fresh⟩

theorem Orderly.evolves (ho : Orderly a) (h : Evolves a b) : Orderly b := by
  induction h with
  | refl => exact ho
  | tail _ hstep ih => exact ih.change hstep.change

theorem Orderly.leads (ho : Orderly a) (h : Leads a b) : Orderly b := by
  rcases h with hevolves | ⟨c, hevolves, hengagement, -⟩
  · exact ho.evolves hevolves
  · exact (ho.evolves hevolves).engagement hengagement

end Orderly

section Ids

variable {a b : Agent}

theorem IdsBounded.change (hids : IdsBounded a) (h : Change a b) : IdsBounded b := by
  cases h with
  | machine | advance | session => exact hids.of_tracker_eq rfl
  | recount hentry hpos => exact hids.setReferences hentry hpos
  | enrol htag hnew => exact hids.enrol _
  | forget hentry => exact hids.forget _ _
  | remove hmem hreleases hdisables =>
      obtain ⟨thread, enabled, held, rfl⟩ := hdisables.eq
      exact (hreleases.idsBounded (hids.of_tracker_eq rfl)).of_tracker_eq rfl

theorem IdsBounded.engagement (hids : IdsBounded a) (h : Engagement a b) : IdsBounded b := by
  cases h with
  | request hneeded hholds henables =>
      exact (henables.idsBounded (hholds.idsBounded hids)).of_tracker_eq rfl
  | session hnone henables => exact (henables.idsBounded hids).of_tracker_eq rfl

theorem IdsBounded.evolves (hids : IdsBounded a) (h : Evolves a b) : IdsBounded b := by
  induction h with
  | refl => exact hids
  | tail _ hstep ih => exact ih.change hstep.change

end Ids

/-! ### Tidy changes -/

section Tidiness

variable {a b : Agent}

namespace TidyChange

theorem machine {vm : Vm} (hc : a.vm.Conserves vm) : TidyChange a (a.setVm vm) :=
  ⟨.machine hc.toKeeps, tidy_setVm hc, .inl rfl⟩

theorem recount {id : ObjectId} {entry : Tracked} (hentry : a.tracker.entries.get? id = some entry)
    {count : Nat} (hpos : 0 < count) :
    TidyChange a { a with tracker := a.tracker.setReferences id entry count } :=
  ⟨.recount hentry hpos, tidy_setReferences hentry count, .inl rfl⟩

theorem enrol {object : HeapId} {tag : Int} (htag : a.vm.tagAt? object = some tag)
    (hnew : 0 < tag → a.tracker.entries.get? tag.toNat = none)
    (hgrant : a.vm.grants Capabilities.canTagObjects) : TidyChange a (a.enrol object) :=
  ⟨.enrol htag hnew, tidy_enrol a object, .inr hgrant⟩

theorem forget {id : ObjectId} {entry : Tracked}
    (hentry : a.tracker.entries.get? id = some entry) :
    TidyChange a (Tracking.forget id entry a) :=
  ⟨.forget hentry, tidy_forget hentry, .inl rfl⟩

theorem advance (kind : EventKind) (ctx : Context) : TidyChange a (a.advance kind ctx) :=
  ⟨.advance kind ctx, tidy_of_same (fun h => h) (held?_congr rfl rfl), .inl rfl⟩

theorem remove {c : Agent} {request : Request} (hmem : request ∈ a.requests.requests)
    (hreleases : Releases (a.dropRequest request.id) request.registration.breakpoint b)
    (hdisables : Disables b request.registration.notification c) : TidyChange a c := by
  refine ⟨.remove hmem hreleases hdisables, fun hids => ?_, .inl ?_⟩
  · have hdropped : IdsBounded (a.dropRequest request.id) := hids.of_tracker_eq rfl
    exact (hreleases.tidy.trans hreleases.idsBounded hdisables.tidy) hdropped
  · obtain ⟨set, counts, rfl⟩ := hreleases.eq
    obtain ⟨thread, enabled, held, rfl⟩ := hdisables.eq
    rfl

theorem session (f : Session → Session) :
    TidyChange a { a with session := a.session.map f } :=
  ⟨.session f, tidy_of_same (fun h => h) (held?_congr rfl rfl), .inl rfl⟩

end TidyChange

theorem Evolves.tidy (h : Evolves a b) : Tidy a b := by
  intro hids
  induction h with
  | refl => exact Tidy.refl a hids
  | tail hevolves hstep ih =>
      intro global hstrays
      exact ih global (hstep.tidy (hids.evolves hevolves) global hstrays)

theorem Leads.tidy (h : Leads a b) : Tidy a b := by
  rcases h with hevolves | ⟨c, hevolves, -, hlast⟩
  · exact hevolves.tidy
  · exact hevolves.tidy.trans (fun hids => hids.evolves hevolves) hlast

end Tidiness

end DebugAgent
