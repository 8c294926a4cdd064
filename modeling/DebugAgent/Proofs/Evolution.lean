import DebugAgent.Proofs.Processing

/-!
# Operations and runs

Every operation leads from an orderly state to the next one by tidy changes, with an engagement at
the end if it sets a request or opens the session.  So what is preserved by every change and every
engagement holds throughout a run, at the end of each operation and in the middle of it.
-/

namespace DebugAgent

open DebugAgent.Action Command Registration Tracking
open Relation (ReflTransGen)

variable {a b : Agent}

/-! ### Operations -/

theorem evolves_setup (step : Vm.Setup) (ho : Orderly a) :
    Evolves a (a.setVm (step.apply a.vm)) := by
  rcases Vm.Setup.apply_cases a.vm step with hframe | ⟨object, heq⟩
  · exact .single (.machine hframe.conserves)
  · rw [heq]
    exact .single (.machine (Vm.conserves_newLocal ho.refs object))

theorem leads_serve (caller : NativeThread) (command : ClientCommand) (ho : Orderly a) :
    Leads a (Agent.serve caller command a).2 := by
  simp only [Agent.serve]
  split
  · exact .inl .refl
  · exact leads_answer ((deed_ofClient caller command).progresses) caller ho

theorem leads_attach (caller : NativeThread) (canDeliver : Bool) (ho : Orderly a) :
    Leads a (Agent.attach caller canDeliver a).2 := by
  refine leads_answer (fun b hb => ?_) caller ho
  rcases opening_cases canDeliver hb.refs with
    ⟨cause, vm, hconserves, hopening⟩ | ⟨hnone, c, henables, htidy, hopening⟩
  · rw [hopening]
    exact .inl (.single (.machine hconserves))
  · rw [hopening]
    have hopened : Tidy c { c with session := some {} } :=
      tidy_of_same (fun h => h) (held?_congr rfl rfl)
    exact .inr ⟨b, .refl, .session hnone henables, htidy.trans henables.idsBounded hopened⟩

/-- Every operation on an orderly state is a series of changes, perhaps with an engagement at its
end. -/
theorem leads_apply (op : Op) (ho : Orderly a) : Leads a (a.apply op) := by
  cases op with
  | setup step => exact .inl (evolves_setup step ho)
  | command caller command => exact leads_serve caller command ho
  | attach caller canDeliver => exact leads_attach caller canDeliver ho
  | closeSession => exact .inl (.single (.session _))
  | drain =>
      rw [Agent.apply, Agent.drain]
      cases hsession : a.session with
      | none => exact .inl .refl
      | some session =>
          have hchange := TidyChange.session (a := a) fun s => { s with sets := [] }
          rw [hsession] at hchange
          exact .inl (.single hchange)
  | deliver caller c => exact .inl (evolves_deliver caller c ho)
  | callback caller c => exact .inl (evolves_onCallback caller c ho)
  | trackNew caller h => exact leads_answer ((Looks.trackNew h).progresses) caller ho
  | trackObject caller h declared =>
      exact leads_answer ((looks_trackObject h declared).progresses) caller ho
  | trackClass caller h => exact leads_answer ((looks_trackClass h).progresses) caller ho
  | release caller id => exact leads_answer (progresses_of_changes (makes_release id)) caller ho
  | dispose caller id count =>
      exact leads_answer (progresses_of_changes (makes_dispose id count)) caller ho

/-! ### Runs -/

theorem Evolves.unfolds (h : Evolves a b) : Unfolds a b :=
  ReflTransGen.mono (fun _ _ hstep => .inl hstep.change) a b h

theorem Leads.unfolds (h : Leads a b) : Unfolds a b := by
  rcases h with hevolves | ⟨c, hevolves, hengagement, -⟩
  · exact hevolves.unfolds
  · exact .tail hevolves.unfolds (.inr hengagement)

theorem unfolds_run (ho : Orderly a) (ops : List Op) : Unfolds a (a.run ops) := by
  induction ops generalizing a with
  | nil => exact .refl
  | cons op ops ih =>
      have hleads := leads_apply op ho
      exact hleads.unfolds.trans (ih (ho.leads hleads))

/-- What is so at the start and survives every change and engagement is so ever after. -/
theorem unfolds_invariant {P : Agent → Prop} (hchange : ∀ a b, Orderly a → Change a b → P a → P b)
    (hengagement : ∀ a b, Orderly a → Engagement a b → P a → P b) (ho : Orderly a) (ha : P a)
    (h : Unfolds a b) : Orderly b ∧ P b := by
  induction h with
  | refl => exact ⟨ho, ha⟩
  | tail _ hstep ih =>
      obtain ⟨hbefore, hp⟩ := ih
      rcases hstep with hstep | hlast
      · exact ⟨hbefore.change hstep, hchange _ _ hbefore hstep hp⟩
      · exact ⟨hbefore.engagement hlast, hengagement _ _ hbefore hlast hp⟩

theorem Orderly.unfolds (ho : Orderly a) (h : Unfolds a b) : Orderly b :=
  (unfolds_invariant (P := fun _ => True) (fun _ _ _ _ h => h) (fun _ _ _ _ h => h) ho trivial h).1

theorem Orderly.run (ho : Orderly a) (ops : List Op) : Orderly (a.run ops) :=
  ho.unfolds (unfolds_run ho ops)

theorem run_invariant {P : Agent → Prop} (hchange : ∀ a b, Orderly a → Change a b → P a → P b)
    (hengagement : ∀ a b, Orderly a → Engagement a b → P a → P b) (ho : Orderly a) (ha : P a)
    (ops : List Op) : P (a.run ops) :=
  (unfolds_invariant hchange hengagement ho ha (unfolds_run ho ops)).2

namespace Vm

theorem frame_fresh : empty.Frame fresh :=
  ((((((((frame_allocate _ _).trans (frame_allocate _ _)).trans (frame_allocate _ _)).trans
    (frame_allocate _ _)).trans (frame_allocate _ _)).trans (frame_allocate _ _)).trans
      (frame_allocate _ _)).trans (frame_allocate _ _)).trans (frame_allocate _ _)

theorem conserves_built (steps : List Setup) : empty.Conserves (built steps) := by
  have hempty : empty.RefsBounded := fun raw ref href => by cases href
  have hsteps : ∀ {vm : Vm}, empty.Conserves vm →
      empty.Conserves (steps.foldl Setup.apply vm) := by
    induction steps with
    | nil => exact fun hvm => hvm
    | cons step steps ih =>
        intro vm hvm
        apply ih
        rcases Setup.apply_cases vm step with hframe | ⟨object, heq⟩
        · exact hvm.trans hframe.conserves
        · rw [heq]
          exact hvm.trans (conserves_newLocal (hvm.toAges.bounded hempty) object)
  exact hsteps frame_fresh.conserves

theorem keeps_built (steps : List Setup) : empty.Keeps (built steps) :=
  (conserves_built steps).toKeeps

theorem bounded_built (steps : List Setup) : (built steps).RefsBounded :=
  (keeps_built steps).toAges.bounded fun raw ref href => by cases href

/-- No object has a tag before an agent is started. -/
theorem tagAt?_built {steps : List Setup} {object : HeapId} {tag : Int}
    (htag : (built steps).tagAt? object = some tag) : tag = 0 := by
  rcases (keeps_built steps).untagged htag with hzero | hempty
  · exact hzero
  · simp [tagAt?, empty] at hempty

end Vm

theorem orderly_reached (steps : List Vm.Setup) (config : Config) (ops : List Op) :
    Orderly (Agent.reached steps config ops) :=
  (orderly_start (Vm.bounded_built steps) config).run ops

end DebugAgent
