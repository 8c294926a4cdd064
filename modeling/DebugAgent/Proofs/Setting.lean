import DebugAgent.Proofs.Counts

/-!
# Setting a request

A command to set a request is refused, and then the table is what it was, or it puts one request at
the end of it: under the next identifier, of the kind that was asked for and with the counts of the
modifiers, which are positive.  A request for the death of the machine has no other filters than
counts.
-/

namespace DebugAgent

open DebugAgent.Action Command Registration Tracking

/-- What is left of the count, if the filter is one. -/
def Filter.count? : Filter → Option Int
  | .count remaining => some remaining
  | _ => none

/-- How often a request fires at most that this modifier limits. -/
def EventModifier.times? : EventModifier → Option Int
  | .count times => some times
  | _ => none

/-- What the counts of a request are down to. -/
def Request.counts (request : Request) : List Int := request.filters.filterMap Filter.count?

/-- All filters are counts, which accept everything. -/
def OnlyCounts (filters : List Filter) : Prop := ∀ filter ∈ filters, filter.count?.isSome

variable {a : Agent} {α β : Type}

/-! ### The filters of a request -/

/-- Nothing but a count makes sense where there is no thread. -/
theorem times?_of_appliesTo_vmDeath {modifier : EventModifier}
    (happlies : modifier.appliesTo .vmDeath) : modifier.times?.isSome := by
  cases modifier with
  | count => rfl
  | _ => cases happlies

/-- What a modifier that makes sense for the kind of event comes to. -/
theorem returns_filterOf_of_appliesTo (kind : EventKind) (modifier : EventModifier) :
    (filterOf kind modifier).Returns fun _ => modifier.appliesTo kind := by
  refine returns_bind (returns_guard _ _) fun _ happlies => ?_
  exact fun _ _ _ _ => happlies

/-- A count is kept as it was given, and it is positive. -/
theorem returns_filterOf (kind : EventKind) (modifier : EventModifier) :
    (filterOf kind modifier).Returns fun filter =>
      filter.count? = modifier.times? ∧ ∀ count ∈ filter.count?, 0 < count := by
  have hno : ∀ {filter : Filter}, filter.count? = none →
      (pure filter : Command Filter).Returns fun filter =>
        filter.count? = none ∧ ∀ count ∈ filter.count?, 0 < count := by
    intro filter hnone
    refine returns_pure ⟨hnone, fun count hcount => ?_⟩
    rw [hnone] at hcount
    cases hcount
  apply returns_after
  intro _
  cases modifier with
  | count times =>
      refine returns_bind (returns_guard _ _) fun _ hpositive => returns_pure ⟨rfl, ?_⟩
      intro count hcount
      cases hcount
      exact of_decide_eq_true hpositive
  | threadOnly thread => exact returns_withThread fun _ => hno rfl
  | classOnly refType => exact returns_withRef fun _ => hno rfl
  | classMatch pattern | classExclude pattern => exact hno rfl
  | locationOnly location => exact returns_after fun _ => returns_withRef fun _ => hno rfl
  | exceptionOnly refType caught uncaught =>
      have hfilter := @hno (.exceptionOnly refType caught uncaught) rfl
      dsimp only
      split
      · exact returns_after fun _ => hfilter
      · exact hfilter
  | fieldOnly refType field =>
      intro a r b hperform
      cases hperform
  | step thread size depth =>
      exact returns_withThread fun _ => returns_after fun _ => hno rfl
  | instanceOnly object => exact returns_withRef fun _ => hno rfl

theorem returns_filters_vmDeath (modifiers : List EventModifier) :
    (modifiers.mapM (filterOf .vmDeath)).Returns OnlyCounts := by
  induction modifiers with
  | nil => exact returns_pure fun _ hmem => by cases hmem
  | cons modifier modifiers ih =>
      rw [List.mapM_cons]
      have hfirst : (filterOf .vmDeath modifier).Returns fun filter => filter.count?.isSome := by
        intro a filter b hperform
        obtain ⟨hcount, -⟩ := returns_filterOf .vmDeath modifier a filter b hperform
        have happlies := returns_filterOf_of_appliesTo .vmDeath modifier a filter b hperform
        rw [hcount]
        exact times?_of_appliesTo_vmDeath happlies
      refine returns_bind hfirst fun filter hfilter => ?_
      refine returns_bind ih fun filters hfilters => returns_pure ?_
      exact List.forall_mem_cons.mpr ⟨hfilter, hfilters⟩

theorem returns_filters (kind : EventKind) (modifiers : List EventModifier) :
    (modifiers.mapM (filterOf kind)).Returns fun filters =>
      filters.filterMap Filter.count? = modifiers.filterMap EventModifier.times? ∧
        ∀ count ∈ filters.filterMap Filter.count?, 0 < count := by
  induction modifiers with
  | nil => exact returns_pure ⟨rfl, fun count hmem => by cases hmem⟩
  | cons modifier modifiers ih =>
      rw [List.mapM_cons]
      refine returns_bind (returns_filterOf kind modifier) fun filter hfilter => ?_
      refine returns_bind ih fun filters hfilters => returns_pure ?_
      obtain ⟨hcount, hpositive⟩ := hfilter
      obtain ⟨hcounts, hpositives⟩ := hfilters
      rw [List.filterMap_cons, List.filterMap_cons, ← hcount, ← hcounts]
      cases hfound : filter.count? with
      | none => exact ⟨rfl, hpositives⟩
      | some count =>
          refine ⟨rfl, fun remaining hmem => ?_⟩
          rcases List.mem_cons.mp hmem with rfl | hmem
          · exact hpositive _ hfound
          · exact hpositives _ hmem

/-! ### Registering -/

/-- What comes of registering a request: it is refused, or it is added to the table under the next
identifier with the counts of its modifiers. -/
inductive Registers (kind : EventKind) (modifiers : List EventModifier) (a : Agent) :
    Except (Stop ProtocolError) RequestId × Agent → Prop where
  | refused {stop b} (htable : b.requests.requests = a.requests.requests) :
      Registers kind modifiers a (.error stop, b)
  | added {request : Request} {b} (hid : request.id = a.requests.nextId)
      (hkind : request.kind = kind)
      (hcounts : request.counts = modifiers.filterMap EventModifier.times?)
      (hpositive : ∀ count ∈ request.counts, 0 < count)
      (hdeath : kind = .vmDeath → OnlyCounts request.filters)
      (htable : b.requests.requests = a.requests.requests ++ [request]) :
      Registers kind modifiers a (.ok request.id, b)

/-- What comes after a look at the machine. -/
theorem registers_bind {kind : EventKind} {modifiers : List EventModifier} {x : Command α}
    {f : α → Command RequestId} (hx : Looks Control.Any x) (ho : Orderly a)
    (hf : ∀ r b, x.perform a = (.ok r, b) → Orderly b → b.requests = a.requests →
      Registers kind modifiers b ((f r).perform b)) :
    Registers kind modifiers a ((x >>= f).perform a) := by
  have hevolves := hx.evolves ho
  have hleaves := (hx.leaves a).1
  rw [perform_bind]
  cases hperform : x.perform a with
  | mk outcome b =>
      rw [hperform] at hevolves hleaves
      cases outcome with
      | error stop => exact .refused (congrArg RequestTable.requests hleaves)
      | ok r =>
          have hregisters := hf r b hperform (ho.evolves hevolves) hleaves
          dsimp only at hleaves ⊢
          generalize (f r).perform b = result at hregisters ⊢
          cases hregisters with
          | refused htable => exact .refused (htable.trans (congrArg _ hleaves))
          | added hid hkind hcounts hpositive hdeath htable =>
              rw [hleaves] at hid htable
              exact .added hid hkind hcounts hpositive hdeath htable

theorem registers_register (kind : EventKind) (policy : SuspendPolicy)
    (modifiers : List EventModifier) (ho : Orderly a) :
    Registers kind modifiers a ((register kind policy modifiers).perform a) := by
  refine registers_bind (looks_guard _ _) ho fun _ b _ hb _ => ?_
  have hlooks : Looks Control.Any (modifiers.mapM (filterOf kind)) :=
    looks_mapM (looks_filterOf kind) modifiers
  refine registers_bind hlooks hb fun filters c hfilters hc _ => ?_
  obtain ⟨hcounts, hpositive⟩ := returns_filters kind modifiers b filters c hfilters
  have hdeath : kind = .vmDeath → OnlyCounts filters := by
    rintro rfl
    exact returns_filters_vmDeath modifiers b filters c hfilters
  cases hneeded : needed kind filters with
  | error cause => exact .refused rfl
  | ok registration =>
      rcases acquire_cases registration hc.refs hc.counts with
        ⟨cause, vm, -, hacquire⟩ | ⟨d, e, hholds, henables, -, hacquire⟩
      · simp only [perform_bind, Action.ofExcept, perform_inspect, mapError_ok, hacquire]
        exact .refused rfl
      · obtain ⟨set, breakpoints, rfl⟩ := hholds.eq
        obtain ⟨vm, enabled, held, -, rfl⟩ := henables.eq
        simp only [perform_bind, Action.ofExcept, perform_inspect, mapError_ok, hacquire,
          perform_look, perform_change, perform_pure]
        let request : Request := ⟨c.requests.nextId, kind, policy, filters, registration⟩
        exact @Registers.added kind modifiers c request _ rfl rfl hcounts hpositive hdeath rfl

theorem registers_set {kindCode : Nat} {kind : EventKind}
    (hkind : EventKind.ofCode kindCode = .ok kind) (policy : SuspendPolicy)
    (modifiers : List EventModifier) (ho : Orderly a) :
    Registers kind modifiers a ((EventRequest.set kindCode policy modifiers).perform a) := by
  have hregisters := registers_register kind policy modifiers ho
  simpa [EventRequest.set, perform_bind, Action.ofExcept, hkind] using hregisters

end DebugAgent
