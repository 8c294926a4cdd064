import DebugAgent.Proofs.Balance

/-!
# Looking does not disturb

Most commands of the client ask about the debugged program and are not meant to do anything to it.
They do leave something behind: objects are tagged and kept alive by global references, references
have been numbered, reads of fields have been counted and an exception may have been cleared.  A
machine without these traces is `bare`.  Whatever a command asks for and however it ends, the bare
machine that it leaves is the one that it found, where the native thread that issued it had been
attached.
-/

namespace DebugAgent

open DebugAgent.Action Command
open Relation (ReflTransGen)

/-! ### Machines without traces -/

def HeapObject.untagged (object : HeapObject) : HeapObject := { object with tag := 0 }

/-- The machine without the traces that looking at it leaves. -/
def Vm.bare (vm : Vm) : Vm :=
  { vm with
    heap := vm.heap.map HeapObject.untagged
    refs := {}
    lastRef := 0
    exceptionPending := false
    fieldReads := 0 }

namespace Vm

variable {vm vm' : Vm}

theorem bare_setTagAt (vm : Vm) (id : HeapId) (tag : Int) : (vm.setTagAt id tag).bare = vm.bare := by
  have hheap : (vm.setTagAt id tag).heap.map HeapObject.untagged =
      vm.heap.map HeapObject.untagged := by
    apply Array.ext_getElem?
    intro i
    rw [Array.getElem?_map, Array.getElem?_map, heap_setTagAt]
    split
    · rw [Option.map_map]
      rfl
    · rfl
  simp only [bare, hheap]
  rfl

theorem Glance.bare (h : vm.Glance vm') : vm'.bare = vm.bare := by
  cases h with
  | closeRef h =>
      obtain ⟨refs, heq⟩ := vm.deleteRef_eq .localRef h
      exact (congrArg Vm.bare heq :)
  | openRef | raise | clearException | countFieldRead => rfl

/-- Objects of machines that differ in traces only differ in their tags only. -/
theorem heap_of_bare (h : vm'.bare = vm.bare) {id : HeapId} {object : HeapObject}
    (hobject : vm.heap[id]? = some object) : ∃ tag, vm'.heap[id]? = some { object with tag } := by
  have hheap : vm'.heap.map HeapObject.untagged = vm.heap.map HeapObject.untagged :=
    congrArg Vm.heap h
  have hsame := congrArg (fun heap => heap[id]?) hheap
  simp only [Array.getElem?_map, hobject, Option.map_some] at hsame
  obtain ⟨found, hfound, huntagged⟩ := Option.map_eq_some_iff.mp hsame
  refine ⟨found.tag, hfound.trans (congrArg some ?_)⟩
  obtain ⟨cls, tag, body⟩ := found
  cases huntagged
  rfl

/-- Attaching a native thread adds at most its thread object. -/
theorem attach_eq (vm : Vm) (caller : NativeThread) :
    ∃ heap attached, (vm.attach caller).2 = { vm with heap, attached } ∧
      ∀ (id : HeapId) (object : HeapObject),
        vm.heap[id]? = some object → heap[id]? = some object := by
  rw [attach]
  split
  · exact ⟨vm.heap, vm.attached, rfl, fun _ _ h => h⟩
  · refine ⟨_, _, rfl, fun id object hobject => ?_⟩
    have hlt : id < vm.heap.size := (Array.getElem?_eq_some_iff.mp hobject).1
    exact (heap_allocate vm threadClass _ id).trans ((if_neg (Nat.ne_of_lt hlt)).trans hobject)

end Vm

/-! ### Commands that ask -/

/-- The command asks about the debugged program: it neither stops nor resumes threads, nor does it
give identifiers back or set or clear requests. -/
def ClientCommand.asks : ClientCommand → Bool
  | .suspend | .resume | .suspendThread _ | .resumeThread _ | .disposeObjects _ | .setEvent _ _ _
  | .clearEvent _ _ | .setBreakpoint _ _ | .clearBreakpoint _ | .clearAllBreakpoints => false
  | _ => true

/-- The machine that a command finds.  The native thread is attached first, if it can be; only the
capabilities are told without that. -/
def Agent.found (a : Agent) (caller : NativeThread) (command : ClientCommand) : Vm :=
  if command = .capabilities ∨ a.vm.attachFails then a.vm else (a.vm.attach caller).2

variable {a b : Agent} {command : ClientCommand}

theorem onlyLooks_of_asks (hasks : command.asks) : command.onlyLooks := by
  cases command <;> first | rfl | cases hasks

theorem not_does_of_asks (hasks : command.asks) (control : Control) : ¬ command.Does control := by
  cases command <;> first | exact id | cases hasks

/-- The machine that a command finds is the one before, with at most one thread more. -/
theorem found_eq (a : Agent) (caller : NativeThread) (command : ClientCommand) :
    ∃ heap attached, a.found caller command = { a.vm with heap, attached } ∧
      ∀ (id : HeapId) (object : HeapObject),
        a.vm.heap[id]? = some object → heap[id]? = some object := by
  rw [Agent.found]
  split
  · exact ⟨a.vm.heap, a.vm.attached, rfl, fun _ _ h => h⟩
  · exact a.vm.attach_eq caller

/-- An inspection that does nothing to threads leaves the bare machine. -/
theorem Inspection.bare (h : Inspection (fun _ => False) a b) : b.vm.bare = a.vm.bare := by
  cases h with
  | glance h => exact h.bare
  | attach hmay | halt hmay | resume hmay => exact hmay.elim
  | recount => rfl
  | @enrol object tag htag hnew => exact Vm.bare_setTagAt a.vm object a.tracker.nextId

theorem bare_of_inspections (h : ReflTransGen (Inspection fun _ => False) a b) :
    b.vm.bare = a.vm.bare := by
  induction h with
  | refl => rfl
  | tail _ hlast ih => exact hlast.bare.trans ih

/-- A command that asks makes inspections of the machine that it finds. -/
theorem inspections_serve (hasks : command.asks) (caller : NativeThread) (a : Agent) :
    ReflTransGen (Inspection fun _ => False) (a.setVm (a.found caller command))
      (Agent.serve caller command a).2 := by
  have hlooks : Looks (fun _ => False) (ofClient caller command) :=
    (looks_ofClient caller (onlyLooks_of_asks hasks)).mono (not_does_of_asks hasks)
  by_cases hcommand : command = .capabilities
  · subst hcommand
    rw [Agent.found, if_pos (.inl rfl)]
    exact .refl
  · rw [Agent.serve_eq hcommand]
    cases hfails : a.vm.attachFails with
    | true =>
        rw [answer_of_not_attaching hfails, Agent.found, if_pos (.inr hfails)]
        exact .refl
    | false =>
        rw [answer_snd_of_attaching hfails, Agent.found, if_neg (by simp [hcommand, hfails])]
        exact hlooks.makes _

/-- A command that asks about the debugged program leaves it alone, whatever it asks for and whether
it gets an answer or not.  The requests and the session are left alone, and so is the machine that the
command finds, except for the traces of looking at it: tags, references and their numbers, the number
of fields read and a pending exception.  No local reference is left behind and no exception.  What it
finds is the machine before, with its native thread attached. -/
theorem asking_does_not_disturb (past : Past) (caller : NativeThread) (hasks : command.asks) :
    let a := past.agent
    let b := (Agent.serve caller command a).2
    (b.requests = a.requests ∧ b.session = a.session ∧ b.config = a.config) ∧
      b.vm.bare = (a.found caller command).bare ∧
      (b.vm.breakpoints = a.vm.breakpoints ∧ b.vm.notifications = a.vm.notifications ∧
        b.vm.properties = a.vm.properties ∧ b.vm.capabilities = a.vm.capabilities ∧
        b.vm.fields = a.vm.fields ∧ b.vm.methods = a.vm.methods) ∧
      (∀ (id : HeapId) (object : HeapObject), a.vm.heap[id]? = some object →
        ∃ tag, b.vm.heap[id]? = some { object with tag := tag }) ∧
      a.vm.Restored b.vm := by
  intro a b
  have hinspections := inspections_serve hasks caller a
  have hbooks := leaves_of_inspections hinspections
  have hbare : b.vm.bare = (a.found caller command).bare := bare_of_inspections hinspections
  obtain ⟨heap, attached, hfound, hkept⟩ := found_eq a caller command
  -- the fields that neither attaching nor looking touches
  have hsame : ∀ {τ : Type} (field : Vm → τ), (∀ vm : Vm, field vm.bare = field vm) →
      field (a.found caller command) = field a.vm → field b.vm = field a.vm := by
    intro τ field hfield hbefore
    rw [← hfield b.vm, hbare, hfield, hbefore]
  refine ⟨hbooks, hbare, ⟨?_, ?_, ?_, ?_, ?_, ?_⟩, ?_, ?_⟩
  · exact hsame Vm.breakpoints (fun _ => rfl) (congrArg Vm.breakpoints hfound :)
  · exact hsame Vm.notifications (fun _ => rfl) (congrArg Vm.notifications hfound :)
  · exact hsame Vm.properties (fun _ => rfl) (congrArg Vm.properties hfound :)
  · exact hsame Vm.capabilities (fun _ => rfl) (congrArg Vm.capabilities hfound :)
  · exact hsame Vm.fields (fun _ => rfl) (congrArg Vm.fields hfound :)
  · exact hsame Vm.methods (fun _ => rfl) (congrArg Vm.methods hfound :)
  · intro id object hobject
    have hthere : (a.found caller command).heap[id]? = some object := by
      rw [hfound]
      exact hkept id object hobject
    exact Vm.heap_of_bare hbare hthere
  · exact (Agent.settled_serve caller command past.inOrder.refs).restored

/-- Listing the threads makes two of them known, one of them that of the client's connection.  The
bare machine has that one more, and nothing else is different. -/
theorem listing_threads_does_not_disturb :
    let past : Past := ⟨[.spawnThread "worker"], {}, []⟩
    ClientCommand.allThreads.asks ∧
      (Agent.serve (.client 0) .allThreads past.agent).2.tracker.size = 2 ∧
      (Agent.serve (.client 0) .allThreads past.agent).2.vm.bare =
        (past.agent.vm.attach (.client 0)).2.bare := by
  intro past
  obtain ⟨-, hbare, -⟩ := @asking_does_not_disturb .allThreads past (.client 0) rfl
  have hfails : past.agent.vm.attachFails = false := by decide +kernel
  rw [Agent.found, if_neg (by simp [hfails])] at hbare
  exact ⟨rfl, by decide +kernel, hbare⟩

end DebugAgent
