import DebugAgent.Proofs.Evolution

/-!
# Reachable states

A run of one agent is not all that can come before a state.  An earlier agent may have worked on the
same machine and left its references and tags behind, and a debugger that goes behind the agent's
back may have used the interfaces of the machine itself.  A `Past` is any list of such incidents.
What an operation does to a state is proved of every state that has a past.

Whatever it consists of, a past leaves the agent's own books in order: references have numbers up to
the newest, requests have identifiers in order, and identifiers in use have been handed out.
-/

namespace DebugAgent

/-- Something that happens to an agent and its machine, or to the machine behind the agent's back. -/
inductive Incident where
  | op (op : Op)
  /-- The agent is gone, and another one is started on the same machine. -/
  | restart (config : Config)
  /-- Anything at all is changed about the machine but its references. -/
  | interfere (change : Vm → Vm)
      (keeps : ∀ vm, (change vm).refs = vm.refs ∧ (change vm).lastRef = vm.lastRef)
  | makeRef (kind : RefKind) (object : HeapId)
  | deleteRef (kind : RefKind) (h : Handle)

/-- What came before a state: how the machine was set up, how the agent was started on it, and what
has happened since. -/
structure Past where
  steps : List Vm.Setup
  config : Config
  incidents : List Incident

namespace Agent

/-- The agent after an incident. -/
def undergo (a : Agent) : Incident → Agent
  | .op op => a.apply op
  | .restart config => start a.vm config
  | .interfere change _ => a.setVm (change a.vm)
  | .makeRef kind object => a.setVm (a.vm.newRef kind object).2
  | .deleteRef kind h => a.setVm (a.vm.deleteRef kind h)

end Agent

/-- The state that a past has led to. -/
def Past.agent (past : Past) : Agent :=
  past.incidents.foldl Agent.undergo (Agent.start (Vm.built past.steps) past.config)

variable {a b : Agent}

/-! ### Books in order -/

/-- The agent's books are in order. -/
structure InOrder (a : Agent) : Prop extends Orderly a where
  ids : IdsBounded a

theorem InOrder.setVm (h : InOrder a) {vm : Vm} (hb : vm.RefsBounded) : InOrder (a.setVm vm) where
  refs := hb
  counts := h.counts
  sorted := h.sorted
  fresh := h.fresh
  ids := h.ids.of_tracker_eq rfl

theorem inOrder_start {vm : Vm} (hb : vm.RefsBounded) (config : Config) :
    InOrder (Agent.start vm config) where
  toOrderly := orderly_start hb config
  ids := idsBounded_start vm config

theorem InOrder.unfolds (h : InOrder a) (hunfolds : Unfolds a b) : InOrder b := by
  obtain ⟨horderly, hids⟩ := unfolds_invariant (P := IdsBounded)
    (fun _ _ _ hchange hids => hids.change hchange)
    (fun _ _ _ hengagement hids => hids.engagement hengagement) h.toOrderly h.ids hunfolds
  exact ⟨horderly, hids⟩

/-- No incident brings the books out of order. -/
theorem InOrder.undergo (h : InOrder a) (incident : Incident) : InOrder (a.undergo incident) := by
  cases incident with
  | op op => exact h.unfolds (leads_apply op h.toOrderly).unfolds
  | restart config => exact inOrder_start h.refs config
  | interfere change keeps =>
      obtain ⟨hrefs, hlast⟩ := keeps a.vm
      exact h.setVm ((Vm.Ages.of_refs_eq hrefs hlast).bounded h.refs)
  | makeRef kind object => exact h.setVm ((Vm.ages_newRef a.vm kind object).bounded h.refs)
  | deleteRef kind handle => exact h.setVm ((Vm.ages_deleteRef a.vm kind handle).bounded h.refs)

theorem Past.inOrder (past : Past) : InOrder past.agent := by
  have hincidents : ∀ (incidents : List Incident) {a : Agent}, InOrder a →
      InOrder (incidents.foldl Agent.undergo a) := by
    intro incidents
    induction incidents with
    | nil => exact fun h => h
    | cons incident incidents ih => exact fun h => ih (h.undergo incident)
  exact hincidents past.incidents (inOrder_start (Vm.bounded_built past.steps) past.config)

theorem Orderly.ages_unfolds (ho : Orderly a) (h : Unfolds a b) : a.vm.Ages b.vm :=
  (unfolds_invariant (P := fun c => a.vm.Ages c.vm)
    (fun _ _ _ hchange hages => hages.trans hchange.ages)
    (fun _ _ _ hengagement hages => hages.trans hengagement.ages) ho (.refl a.vm) h).2

/-- References grow old with every incident. -/
theorem Orderly.ages_undergo (ho : Orderly a) (incident : Incident) :
    a.vm.Ages (a.undergo incident).vm := by
  cases incident with
  | op op => exact ho.ages_unfolds (leads_apply op ho).unfolds
  | restart config => exact .of_refs_eq rfl rfl
  | interfere change keeps =>
      obtain ⟨hrefs, hlast⟩ := keeps a.vm
      exact .of_refs_eq hrefs hlast
  | makeRef kind object => exact Vm.ages_newRef a.vm kind object
  | deleteRef kind handle => exact Vm.ages_deleteRef a.vm kind handle

/-- No valid reference is null. -/
theorem Past.refsPositive (past : Past) : past.agent.vm.RefsPositive := by
  have hincidents : ∀ (incidents : List Incident) {a : Agent}, InOrder a →
      a.vm.Ages (incidents.foldl Agent.undergo a).vm := by
    intro incidents
    induction incidents with
    | nil => exact fun {a} _ => .refl a.vm
    | cons incident incidents ih =>
        intro a ho
        exact (ho.ages_undergo incident).trans (ih (ho.undergo incident))
  have hstart := inOrder_start (Vm.bounded_built past.steps) past.config
  have hbuilt : Vm.empty.Ages (Agent.start (Vm.built past.steps) past.config).vm :=
    (Vm.keeps_built past.steps).toAges.trans (.of_refs_eq rfl rfl)
  have hempty : Vm.empty.RefsPositive := fun _ _ href => by cases href
  exact (hbuilt.trans (hincidents past.incidents hstart)).positive hempty

theorem Past.refsPositive_apply (past : Past) (op : Op) : (past.agent.apply op).vm.RefsPositive :=
  (past.inOrder.toOrderly.ages_undergo (.op op)).positive past.refsPositive

/-- What is so of an agent that has just been started, whatever is done with its machine, and
survives every operation, is so after every past. -/
theorem Past.invariant {P : Agent → Prop} (hstart : ∀ vm config, P (Agent.start vm config))
    (hvm : ∀ a vm, P a → P (a.setVm vm)) (happly : ∀ a op, Orderly a → P a → P (a.apply op))
    (past : Past) : P past.agent := by
  have hincidents : ∀ (incidents : List Incident) {a : Agent}, InOrder a → P a →
      P (incidents.foldl Agent.undergo a) := by
    intro incidents
    induction incidents with
    | nil => exact fun _ hp => hp
    | cons incident incidents ih =>
        intro a ho hp
        refine ih (ho.undergo incident) ?_
        cases incident with
        | op op => exact happly a op ho.toOrderly hp
        | restart config => exact hstart a.vm config
        | interfere | makeRef | deleteRef => exact hvm a _ hp
  exact hincidents past.incidents (inOrder_start (Vm.bounded_built past.steps) past.config)
    (hstart _ _)

/-- A run of one agent on a machine of its own is a past. -/
theorem Agent.reached_eq (steps : List Vm.Setup) (config : Config) (ops : List Op) :
    Agent.reached steps config ops = Past.agent ⟨steps, config, ops.map .op⟩ := by
  rw [Agent.reached, Agent.run, Past.agent, List.foldl_map]
  rfl

end DebugAgent
