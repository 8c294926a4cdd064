import DebugAgent.Proofs.Inspection

/-!
# Global references and what they are held for

The agent keeps objects alive by global references: one for each identifier in use, and one for the
thread of each notification that is for one thread.  A valid global reference that is held for
nothing is astray: nobody will ever delete it.  A change of the state is tidy if it leads no
reference astray.

Whether tracking an object is tidy depends on the identifiers: the next one must not be in use, or
the reference behind it would be lost.
-/

namespace DebugAgent

variable {a b c : Agent}

/-! ### Identifiers in use -/

/-- Identifiers in use are numbers that have been handed out, and none stands for nothing. -/
structure IdsBounded (a : Agent) : Prop where
  pos : 0 < a.tracker.nextId
  bounded : ∀ {id entry}, a.tracker.entries.get? id = some entry → 0 < id ∧ id < a.tracker.nextId
  counted : ∀ {id entry}, a.tracker.entries.get? id = some entry → 0 < entry.references

theorem IdsBounded.of_tracker_eq (hids : IdsBounded a) (htracker : b.tracker = a.tracker) :
    IdsBounded b where
  pos := htracker ▸ hids.pos
  bounded := fun hentry => by
    rw [htracker] at hentry ⊢
    exact hids.bounded hentry
  counted := fun hentry => hids.counted (htracker ▸ hentry)

/-- The identifier 0 is never in use. -/
theorem IdsBounded.get?_zero (hids : IdsBounded a) : a.tracker.entries.get? 0 = none := by
  apply Option.eq_none_iff_forall_ne_some.mpr
  intro entry hentry
  exact Nat.lt_irrefl 0 (hids.bounded hentry).1

/-- No object is behind 0. -/
theorem target?_zero (hids : IdsBounded a) : a.tracker.target? a.vm 0 = none := by
  simp [Tracker.target?, Tracker.global?, hids.get?_zero]

/-- The next identifier is not in use. -/
theorem IdsBounded.get?_nextId (hids : IdsBounded a) :
    a.tracker.entries.get? a.tracker.nextId = none := by
  apply Option.eq_none_iff_forall_ne_some.mpr
  intro entry hentry
  exact absurd (hids.bounded hentry).2 (Nat.lt_irrefl _)

theorem IdsBounded.setReferences (hids : IdsBounded a) {id : ObjectId} {entry : Tracked}
    (hentry : a.tracker.entries.get? id = some entry) {count : Nat} (hpos : 0 < count) :
    IdsBounded { a with tracker := a.tracker.setReferences id entry count } where
  pos := hids.pos
  bounded := by
    intro other found hfound
    simp only [Tracker.setReferences, Table.get?_insert] at hfound
    split at hfound
    · rename_i hother
      rw [hother]
      exact hids.bounded hentry
    · exact hids.bounded hfound
  counted := by
    intro other found hfound
    simp only [Tracker.setReferences, Table.get?_insert] at hfound
    split at hfound
    · cases hfound
      exact hpos
    · exact hids.counted hfound

theorem IdsBounded.enrol (hids : IdsBounded a) (object : HeapId) :
    IdsBounded (a.enrol object) where
  pos := Nat.succ_pos a.tracker.nextId
  bounded := by
    intro other found hfound
    show 0 < other ∧ other < a.tracker.nextId + 1
    simp only [Agent.enrol, Tracker.add, Table.get?_insert] at hfound
    split at hfound
    · rename_i hother
      rw [hother]
      exact ⟨hids.pos, Nat.lt_succ_self _⟩
    · have hbounded := hids.bounded hfound
      exact ⟨hbounded.1, Nat.lt_succ_of_lt hbounded.2⟩
  counted := by
    intro other found hfound
    simp only [Agent.enrol, Tracker.add, Table.get?_insert] at hfound
    split at hfound
    · cases hfound
      exact Nat.one_pos
    · exact hids.counted hfound

theorem IdsBounded.forget (hids : IdsBounded a) (id : ObjectId) (entry : Tracked) :
    IdsBounded (Tracking.forget id entry a) where
  pos := hids.pos
  bounded := fun hfound => hids.bounded (Table.get?_erase_eq_some.mp hfound).2
  counted := fun hfound => hids.counted (Table.get?_erase_eq_some.mp hfound).2

theorem idsBounded_start (vm : Vm) (config : Config) : IdsBounded (Agent.start vm config) where
  pos := Nat.one_pos
  bounded := fun hentry => by cases hentry
  counted := fun hentry => by cases hentry

/-! ### What is held -/

/-- What the agent holds a global reference for. -/
inductive Holder where
  | identifier (id : ObjectId)
  | notification (key : NotificationKey)
  deriving DecidableEq, Repr

/-- The global reference that the agent holds for something. -/
def Agent.held? (a : Agent) : Holder → Option Handle
  | .identifier id => a.tracker.global? id
  | .notification key => (a.requests.notifications.get? key).bind Notification.thread

theorem held?_congr (htracker : b.tracker = a.tracker)
    (hnotifications : b.requests.notifications = a.requests.notifications) :
    b.held? = a.held? := by
  funext x
  cases x <;> simp [Agent.held?, htracker, hnotifications]

theorem held?_setReferences {id : ObjectId} {entry : Tracked}
    (hentry : a.tracker.entries.get? id = some entry) (count : Nat) (x : Holder) :
    ({ a with tracker := a.tracker.setReferences id entry count } : Agent).held? x =
      a.held? x := by
  cases x with
  | notification key => rfl
  | identifier other =>
      simp only [Agent.held?, Tracker.global?, Tracker.setReferences, Table.get?_insert]
      split
      · rename_i h
        rw [h, hentry]
        rfl
      · rfl

theorem held?_enrol (object : HeapId) (a : Agent) (x : Holder) :
    (a.enrol object).held? x =
      if x = .identifier a.tracker.nextId then some ⟨a.vm.lastRef + 8⟩ else a.held? x := by
  cases x with
  | notification key => rfl
  | identifier other =>
      simp only [Agent.held?, Tracker.global?, Agent.enrol, Tracker.add, Table.get?_insert,
        Holder.identifier.injEq]
      split <;> rfl

theorem held?_forget (id : ObjectId) (entry : Tracked) (a : Agent) (x : Holder) :
    (Tracking.forget id entry a).held? x = if x = .identifier id then none else a.held? x := by
  cases x with
  | notification key => rfl
  | identifier other =>
      simp only [Agent.held?, Tracker.global?, Tracking.forget, Tracker.remove, Table.get?_erase,
        Holder.identifier.injEq]
      split <;> rfl

/-! ### Tidy changes -/

/-- The reference is a valid global one. -/
def Vm.HasGlobal (vm : Vm) (global : Handle) : Prop :=
  ∃ object, vm.refs.get? global.raw = some ⟨object, .globalRef⟩

/-- A valid global reference that the agent holds for nothing. -/
def Agent.Strays (a : Agent) (global : Handle) : Prop :=
  a.vm.HasGlobal global ∧ ∀ x, a.held? x ≠ some global

/-- No global reference goes astray, as long as identifiers are in order. -/
def Tidy (a b : Agent) : Prop := IdsBounded a → ∀ global, b.Strays global → a.Strays global

theorem Tidy.refl (a : Agent) : Tidy a a := fun _ _ h => h

theorem Tidy.trans (h : Tidy a b) (hids : IdsBounded a → IdsBounded b) (h' : Tidy b c) :
    Tidy a c :=
  fun ha global hstrays => h ha global (h' (hids ha) global hstrays)

/-- New references are held, and what was held still is, unless the reference has been deleted. -/
theorem tidy_of_held
    (hnew : ∀ {global}, b.vm.HasGlobal global →
      a.vm.HasGlobal global ∨ ∃ x, b.held? x = some global)
    (hkept : ∀ {x global}, a.held? x = some global → b.vm.HasGlobal global →
      ∃ y, b.held? y = some global) : Tidy a b := by
  intro _ global ⟨hvalid, hfree⟩
  rcases hnew hvalid with hold | ⟨x, hx⟩
  · refine ⟨hold, fun x hx => ?_⟩
    obtain ⟨y, hy⟩ := hkept hx hvalid
    exact hfree y hy
  · exact absurd hx (hfree x)

/-- There are no new references, and what was held still is. -/
theorem tidy_of_same (hglobals : ∀ {global}, b.vm.HasGlobal global → a.vm.HasGlobal global)
    (hheld : b.held? = a.held?) : Tidy a b :=
  tidy_of_held (fun hvalid => .inl (hglobals hvalid)) fun hx _ => ⟨_, hheld ▸ hx⟩

theorem Vm.Conserves.hasGlobal {vm vm' : Vm} (hc : vm.Conserves vm') {global : Handle} :
    vm'.HasGlobal global → vm.HasGlobal global :=
  fun ⟨object, hglobal⟩ => ⟨object, hc.globals_old hglobal⟩

theorem tidy_setVm {vm : Vm} (hc : a.vm.Conserves vm) : Tidy a (a.setVm vm) :=
  tidy_of_same hc.hasGlobal rfl

theorem tidy_setReferences {id : ObjectId} {entry : Tracked}
    (hentry : a.tracker.entries.get? id = some entry) (count : Nat) :
    Tidy a { a with tracker := a.tracker.setReferences id entry count } :=
  tidy_of_same (fun h => h) (funext (held?_setReferences hentry count))

theorem tidy_enrol (a : Agent) (object : HeapId) : Tidy a (a.enrol object) := by
  intro hids
  have hlast : (a.enrol object).held? (.identifier a.tracker.nextId) = some ⟨a.vm.lastRef + 8⟩ := by
    rw [held?_enrol, if_pos rfl]
  have htidy : Tidy a (a.enrol object) := by
    apply tidy_of_held
    · rintro global ⟨target, hglobal⟩
      have hmade := (Vm.get?_newRef (a.vm.setTagAt object a.tracker.nextId) .globalRef object
        global.raw).symm.trans hglobal
      split at hmade
      · rename_i hraw
        exact .inr ⟨_, hlast.trans (congrArg (some ∘ Handle.mk) hraw.symm)⟩
      · exact .inl ⟨target, hmade⟩
    · intro x global hx _
      refine ⟨x, (held?_enrol object a x).trans ((if_neg ?_).trans hx)⟩
      rintro rfl
      simp [Agent.held?, Tracker.global?, hids.get?_nextId] at hx
  exact htidy hids

theorem tidy_forget {id : ObjectId} {entry : Tracked}
    (hentry : a.tracker.entries.get? id = some entry) : Tidy a (Tracking.forget id entry a) := by
  apply tidy_of_held
  · rintro global ⟨object, hglobal⟩
    exact .inl ⟨object, Vm.get?_deleteRef hglobal⟩
  · rintro x global hx ⟨object, hglobal⟩
    refine ⟨x, (held?_forget id entry a x).trans ((if_neg ?_).trans hx)⟩
    rintro rfl
    have hsame : entry.global = global := by simpa [Agent.held?, Tracker.global?, hentry] using hx
    subst hsame
    exact Vm.get?_deleteRef_self a.vm .globalRef entry.global object hglobal

end DebugAgent
