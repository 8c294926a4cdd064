import DebugAgent.Proofs.Breakpoints
import DebugAgent.Proofs.ValueTags

/-!
# One agent on a machine of its own

An earlier agent may have left tags on the objects of its machine, by which a later one can mistake
one object for another.  An agent that has the machine to itself makes no such mistake: the tags on
the objects are its own, so an object that it recognises is the one that the identifier designates,
and no other identifier designates it.
-/

namespace DebugAgent

open DebugAgent.Action Command

/-! ### Reachable states of one agent -/

/-- A state that an agent comes to on a machine that is new when it starts.  The debugged world is
set up and goes on in the course of the run.  Operations may have any arguments, but the objects that
they name are those of the machine. -/
inductive Agent.Alone : Agent → Prop where
  | start (config : Config) : Alone (start Vm.fresh config)
  | apply {a : Agent} (h : Alone a) (op : Op) (hnames : a.vm.Has op.objects) : Alone (a.apply op)

namespace Agent.Alone

variable {a : Agent} {object : HeapId} {id : ObjectId}

theorem reachable (h : a.Alone) : a.Reachable := by
  induction h with
  | start config => exact .start config
  | apply _ op hnames ih => exact .apply ih op hnames

theorem exists_reached (h : a.Alone) : ∃ config ops, a = Agent.reached [] config ops := by
  induction h with
  | start config => exact ⟨config, [], rfl⟩
  | apply _ op _ ih =>
      obtain ⟨config, ops, rfl⟩ := ih
      exact ⟨config, ops ++ [op], (run_append _ ops [op]).symm⟩

theorem sound (h : a.Alone) : Sound a := by
  obtain ⟨config, ops, rfl⟩ := h.exists_reached
  exact sound_reached [] config ops

theorem shared (h : a.Alone) : BreakpointsShared a := by
  obtain ⟨config, ops, rfl⟩ := h.exists_reached
  exact shared_reached [] config ops

theorem needsKept (h : a.Alone) : NeedsKept a := by
  obtain ⟨config, ops, rfl⟩ := h.exists_reached
  exact needsKept_reached [] config ops

theorem attached (h : a.Alone) (hattach : a.vm.attachFails = false) (caller : NativeThread) :
    (a.setVm (a.vm.attach caller).2).Alone := by
  rw [← Reachable.apply_reserved hattach caller .dispose]
  exact h.apply _ Vm.has_nil

theorem later {may : Op → Bool} {b : Agent} (h : a.Alone) (hlater : a.Later may b) : b.Alone := by
  induction hlater with
  | now => exact h
  | apply _ _ hnames ih => exact ih.apply _ hnames

theorem run (h : a.Alone) {ops : List Op}
    (hnames : ∀ n < ops.length, (a.run (ops.take n)).vm.Has (ops[n]?.elim [] Op.objects)) :
    (a.run ops).Alone :=
  Agent.run_of_apply (fun hb op hop => hb.apply op hop) h hnames

/-- The identifier by which an object is recognised designates the object. -/
theorem target?_of_recognises (h : a.Alone) (hknown : a.Recognises object id) :
    a.tracker.target? a.vm id = some object :=
  (h.sound.designates_of_recognises hknown).target?

end Agent.Alone

end DebugAgent
