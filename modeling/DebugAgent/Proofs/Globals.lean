import DebugAgent.Proofs.Past
import DebugAgent.Proofs.Wanted

/-!
# Counting global references

Every operation is tidy, so in a run no global reference ever goes astray: each valid one is held
for an identifier or for the thread of a step, and each one held is valid.  Since no reference is
held twice, their number is the number of identifiers in use and of steps that notifications are
held for.
-/

namespace DebugAgent

open Registration

/-- Number of threads that notifications of steps are held for, as identifiers name them. -/
def RequestTable.stepNotifications (t : RequestTable) : Nat :=
  t.notifications.keys.countP fun key => key.1 = .singleStep && key.2.isSome

variable {a : Agent}

/-! ### Nothing astray -/

theorem tidy_run (h : InOrder a) (ops : List Op) : Tidy a (a.run ops) := by
  induction ops generalizing a with
  | nil => exact .refl a
  | cons op ops ih =>
      have hleads := leads_apply op h.toOrderly
      have hnext := h.unfolds hleads.unfolds
      exact hleads.tidy.trans (fun _ => hnext.ids) (ih hnext)

/-- In a run every valid global reference is held for something. -/
theorem held_of_hasGlobal (steps : List Vm.Setup) (config : Config) (ops : List Op)
    {global : Handle} (hvalid : (Agent.reached steps config ops).vm.HasGlobal global) :
    ∃ x, (Agent.reached steps config ops).held? x = some global := by
  by_contra hfree
  have hstart := inOrder_start (Vm.bounded_built steps) config
  have hstrays := tidy_run hstart ops hstart.ids global ⟨hvalid, not_exists.mp hfree⟩
  obtain ⟨object, hglobal⟩ := hstrays.1
  have hempty := (Vm.conserves_built steps).globals_old hglobal
  cases hempty

/-! ### Counting -/

namespace Agent

/-- All that the agent may hold a global reference for. -/
def holders (a : Agent) : List Holder :=
  a.tracker.entries.keys.map .identifier ++ a.requests.notifications.keys.map .notification

theorem nodup_holders (a : Agent) : a.holders.Nodup := by
  have hids : (a.tracker.entries.keys.map Holder.identifier).Nodup :=
    a.tracker.entries.distinct.map fun _ _ h => Holder.identifier.inj h
  have hkeys : (a.requests.notifications.keys.map Holder.notification).Nodup :=
    a.requests.notifications.distinct.map fun _ _ h => Holder.notification.inj h
  refine List.nodup_append.mpr ⟨hids, hkeys, ?_⟩
  intro x hx y hy heq
  obtain ⟨id, -, rfl⟩ := List.mem_map.mp hx
  obtain ⟨key, -, rfl⟩ := List.mem_map.mp hy
  cases heq

theorem mem_holders {x : Holder} {global : Handle} (hx : a.held? x = some global) :
    x ∈ a.holders := by
  cases x with
  | identifier id =>
      obtain ⟨entry, hentry, -⟩ := Option.map_eq_some_iff.mp hx
      refine List.mem_append_left _ (List.mem_map_of_mem ?_)
      exact List.mem_map.mpr ⟨(id, entry), Table.mem_entries.mpr hentry, rfl⟩
  | notification key =>
      obtain ⟨held, hheld, -⟩ := Option.bind_eq_some_iff.mp hx
      refine List.mem_append_right _ (List.mem_map_of_mem ?_)
      exact List.mem_map.mpr ⟨(key, held), Table.mem_entries.mpr hheld, rfl⟩

end Agent

/-- The valid global references of a machine. -/
def Vm.globals (vm : Vm) : List Handle := (vm.refsOf .globalRef).map fun e => ⟨e.1⟩

theorem Vm.mem_globals {vm : Vm} {global : Handle} :
    global ∈ vm.globals ↔ vm.HasGlobal global := by
  simp only [globals, List.mem_map, Vm.HasGlobal]
  constructor
  · rintro ⟨⟨raw, object, kind⟩, hmem, rfl⟩
    obtain ⟨hget, rfl⟩ := mem_refsOf.mp hmem
    exact ⟨object, hget⟩
  · rintro ⟨object, hget⟩
    exact ⟨(global.raw, ⟨object, .globalRef⟩), mem_refsOf.mpr ⟨hget, rfl⟩, rfl⟩

theorem Vm.nodup_globals (vm : Vm) : vm.globals.Nodup := by
  have hraw := Vm.nodup_raw_refsOf vm .globalRef
  have heq : vm.globals = ((vm.refsOf .globalRef).map Prod.fst).map Handle.mk := by
    rw [Vm.globals, List.map_map]
    rfl
  rw [heq]
  exact hraw.map fun _ _ h => Handle.mk.inj h

/-- If every valid global reference is held for exactly one thing, there are as many as there are
things that one is held for. -/
theorem globalCount_eq (hs : HoldsSoundly a)
    (hheld : ∀ {global}, a.vm.HasGlobal global → ∃ x, a.held? x = some global) :
    a.vm.globalCount = a.holders.countP fun x => (a.held? x).isSome := by
  have hdistinct : (a.holders.filterMap a.held?).Nodup :=
    (Agent.nodup_holders a).filterMap fun x y global hx hy => hs.once hx hy
  have hperm : a.vm.globals.Perm (a.holders.filterMap a.held?) := by
    apply (List.perm_ext_iff_of_nodup (Vm.nodup_globals a.vm) hdistinct).mpr
    intro global
    rw [Vm.mem_globals, List.mem_filterMap]
    constructor
    · intro hvalid
      obtain ⟨x, hx⟩ := hheld hvalid
      exact ⟨x, Agent.mem_holders hx, hx⟩
    · rintro ⟨x, -, hx⟩
      obtain ⟨object, hglobal⟩ := hs.valid hx
      exact ⟨object, hglobal.get?⟩
  calc
    a.vm.globalCount = a.vm.globals.length := by
      rw [Vm.globalCount, Vm.refCount_eq_length, Vm.globals, List.length_map]
    _ = (a.holders.filterMap a.held?).length := hperm.length_eq
    _ = _ := List.length_filterMap_eq_countP

/-- A reference is held for every identifier in use and for every notification for one thread. -/
theorem countP_holders (hmet : ObligationsMet a) (hn : NeedsKept a) :
    (a.holders.countP fun x => (a.held? x).isSome) =
      a.tracker.size + a.requests.stepNotifications := by
  have hids : ∀ id ∈ a.tracker.entries.keys, (a.held? (.identifier id)).isSome := by
    intro id hid
    obtain ⟨⟨id, entry⟩, hmem, rfl⟩ := List.mem_map.mp hid
    simp [Agent.held?, Tracker.global?, Table.mem_entries.mp hmem]
  have hkeys : ∀ key ∈ a.requests.notifications.keys,
      (a.held? (.notification key)).isSome = (key.1 = .singleStep && key.2.isSome) := by
    intro key hkey
    obtain ⟨⟨⟨kind, id⟩, held⟩, hmem, rfl⟩ := List.mem_map.mp hkey
    have hheld := Table.mem_entries.mp hmem
    cases id with
    | none => simp [Agent.held?, hheld, hmet.forAll hheld]
    | some id =>
        obtain ⟨global, thread, hthread, -⟩ := hmet.forOne hheld
        obtain rfl : kind = .singleStep := ((needed_of_forOne hmet hn).mp ⟨held, hheld⟩).1
        simp [Agent.held?, hheld, hthread]
  rw [Agent.holders, List.countP_append, List.countP_map, List.countP_map]
  refine congrArg₂ (· + ·) ?_ ?_
  · exact (List.countP_eq_length.mpr hids).trans (List.length_map _)
  · exact List.countP_congr fun key hkey => by simp [hkeys key hkey]

/-! ### The account -/

/-- Throughout a run there is one global reference for each identifier in use and one for each
thread that steps are notified of, and no other: every valid one is held for exactly one of these,
and every one held is valid.  Steps are notified of a thread as long as a request for them is
registered. -/
theorem global_references_accounted (steps : List Vm.Setup) (config : Config) (ops : List Op) :
    let a := Agent.reached steps config ops
    a.vm.globalCount = a.tracker.size + a.requests.stepNotifications ∧
    (∀ global, a.vm.HasGlobal global → ∃! x, a.held? x = some global) ∧
    (∀ x global, a.held? x = some global → a.vm.HasGlobal global) ∧
    (∀ kind id, (∃ held, a.requests.notifications.get? (kind, some id) = some held) ↔
      kind = .singleStep ∧ ∃ request ∈ a.requests.requests, request.kind = .singleStep ∧
        request.filters.filterMap stepThreadOf? = [id]) := by
  intro a
  have hs : HoldsSoundly a := (sound_reached steps config ops).toHoldsSoundly
  have hmet : ObligationsMet a := met_reached steps config ops
  have hn : NeedsKept a := needsKept_reached steps config ops
  refine ⟨?_, ?_, ?_, fun kind id => needed_of_forOne hmet hn⟩
  · rw [globalCount_eq hs (held_of_hasGlobal steps config ops), countP_holders hmet hn]
  · intro global hvalid
    obtain ⟨x, hx⟩ := held_of_hasGlobal steps config ops hvalid
    exact ⟨x, hx, fun y hy => hs.once hy hx⟩
  · intro x global hx
    obtain ⟨object, hglobal⟩ := hs.valid hx
    exact ⟨object, hglobal.get?⟩

end DebugAgent
