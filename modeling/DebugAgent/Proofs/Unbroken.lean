import DebugAgent.Proofs.ClassNames
import DebugAgent.Proofs.Intact
import DebugAgent.Proofs.Turns

/-!
# Nothing ever breaks

However an agent and its machine have come to a state, as long as the debugged world names objects
that are there, nothing breaks in it: no command of the client does, whatever its arguments, and no
callback, whatever references it carries.  So the boundary of a command reports an internal error
only if the command was refused with one.
-/

namespace DebugAgent

open DebugAgent.Action Command Registration Tracking

variable {a : Agent} {α : Type}

/-! ### At the boundary of a command -/

/-- Nothing breaks when the command is carried out for a native thread. -/
def Agent.Withstands (a : Agent) (caller : NativeThread) (x : Command α) : Prop :=
  ((Command.attach caller *> x).perform a).1 ≠ .error .broken

theorem safe_opening (canDeliver : Bool) : (Agent.opening canDeliver).Safe Agent.Intact :=
  safe_bind (safe_look _) fun _ => safe_bind (safe_guard _ _) fun _ =>
    safe_bind (safe_guard _ _) fun _ => safe_bind (Registration.safe_enable _) fun _ =>
      safe_change fun _ ha => ⟨ha.closed, ha.breakpoints, ha.notifications⟩

theorem safe_applySuspension (target : SuspendTarget) :
    (Delivery.applySuspension target).Safe Agent.Intact :=
  (looks_applySuspension target).safe

namespace Agent.Intact

theorem safeAt (h : a.Intact) {x : Command α} (hx : x.Safe Agent.Intact) (caller : NativeThread) :
    (Command.attach caller *> x).SafeAt Agent.Intact a := by
  rw [seqRight_eq_bind]
  exact safe_bind (safe_attach caller) (fun _ => hx) a h

theorem withstands (h : a.Intact) {x : Command α} (hx : x.Safe Agent.Intact)
    (caller : NativeThread) : a.Withstands caller x :=
  (h.safeAt hx caller).unbroken

theorem answer (h : a.Intact) {x : Command α} (hx : x.Safe Agent.Intact) (caller : NativeThread) :
    (answer caller x a).2.Intact := by
  rw [answer_snd, ← seqRight_eq_bind]
  exact (h.safeAt hx caller).after

/-! ### Operations -/

theorem send (h : a.Intact) (fired : Fired) : (Delivery.send fired a).Intact := by
  rw [Delivery.send]
  split
  · exact h
  · have hsuspended : (Delivery.suspendFor fired.suspend a).Intact := by
      cases fired.suspend with
      | none => exact h
      | some target => exact h.answer (safe_applySuspension target) .delivery
    exact ⟨hsuspended.closed, hsuspended.breakpoints, hsuspended.notifications⟩

theorem onCallback (h : a.Intact) (caller : NativeThread) (c : Callback Handle) :
    (a.onCallback caller c).Intact := by
  have hprocessed := h.answer (Firing.safe_process c) caller
  rw [Agent.onCallback_eq]
  cases a.fired? caller c with
  | none => exact hprocessed
  | some fired => exact hprocessed.send fired

end Agent.Intact

/-- The objects that an operation names.  References may be any. -/
def Op.objects : Op → List HeapId
  | .setup step => step.objects
  | .deliver _ c => c.thread?.toList ++ c.other?.toList
  | _ => []

theorem Agent.Intact.apply (h : a.Intact) {op : Op} (hnames : a.vm.Has op.objects) :
    (a.apply op).Intact := by
  cases op with
  | setup step => exact h.setVm (Vm.Setup.closed h.closed hnames)
  | command caller command =>
      cases command with
      | capabilities => exact h
      | _ => exact h.answer (safe_ofClient caller _) caller
  | attach caller canDeliver =>
      rw [Agent.apply, Agent.attach]
      exact h.answer (safe_opening canDeliver) caller
  | closeSession => exact ⟨h.closed, h.breakpoints, h.notifications⟩
  | drain =>
      rw [Agent.apply, Agent.drain]
      cases a.session with
      | none => exact h
      | some session => exact ⟨h.closed, h.breakpoints, h.notifications⟩
  | deliver caller c =>
      rw [Agent.apply, Agent.deliver]
      split
      · have hentered := h.setVm (h.closed.enterCallback hnames)
        have hcalled := hentered.onCallback caller (a.vm.enterCallback c).1
        exact hcalled.setVm (hcalled.closed.leaveCallback c _)
      · exact h
  | callback caller c => exact h.onCallback caller c
  | trackNew caller handle => exact h.answer (safe_trackNew handle) caller
  | trackObject caller handle declared =>
      have hlooks : Looks Control.Any (trackObject handle declared) :=
        looks_trackObject handle declared
      exact h.answer hlooks.safe caller
  | trackClass caller handle =>
      have hlooks : Looks Control.Any (trackClass handle) := looks_trackClass handle
      exact h.answer hlooks.safe caller
  | release caller id => exact h.answer (safe_release id) caller
  | dispose caller id count => exact h.answer (safe_dispose id count) caller

/-- Where an operation has the agent called back, the references that the callback carries are taken
to objects that are there. -/
theorem Agent.Intact.calledBack (h : a.Intact) {op : Op} (hnames : a.vm.Has op.objects)
    {near : Agent} {caller : NativeThread} {c : Callback Handle}
    (hcalled : a.calledBack? op = some (near, caller, c)) : near.Intact := by
  cases op with
  | callback =>
      cases hcalled
      exact h
  | deliver native happening =>
      rw [Agent.calledBack?] at hcalled
      dsimp only at hcalled
      split at hcalled
      · cases hcalled
        exact h.setVm (h.closed.enterCallback hnames)
      · cases hcalled
  | _ => cases hcalled

/-! ### Reachable states -/

/-- A state that an agent and its machine can come to.  An agent is started on a new machine, or on
the machine of an earlier agent; operations may have any arguments, but the objects that they name
are those of the machine. -/
inductive Agent.Reachable : Agent → Prop where
  | start (config : Config) : Reachable (start Vm.fresh config)
  | restart {a : Agent} (h : Reachable a) (config : Config) : Reachable (start a.vm config)
  | apply {a : Agent} (h : Reachable a) (op : Op) (hnames : a.vm.Has op.objects) :
      Reachable (a.apply op)

theorem Agent.Intact.start {vm : Vm} (hc : vm.Closed) (config : Config) :
    (Agent.start vm config).Intact :=
  ⟨hc.of_eq rfl rfl rfl rfl rfl, Table.all_empty, Table.all_empty⟩

namespace Agent.Reachable

theorem intact (h : a.Reachable) : a.Intact := by
  induction h with
  | start config => exact .start Vm.closed_fresh config
  | restart _ config ih => exact .start ih.closed config
  | apply _ op hnames ih => exact ih.apply hnames

theorem orderly (h : a.Reachable) : Orderly a := by
  induction h with
  | start config => exact orderly_start (Vm.bounded_built []) config
  | restart _ config ih => exact orderly_start ih.refs config
  | apply _ op _ ih => exact ih.leads (leads_apply op ih)

end Agent.Reachable

/-! ### Reading arrays -/

namespace Vm

/-- The elements of an array; other objects have none. -/
def elementsAt (vm : Vm) (id : HeapId) : List Stored :=
  match vm.heap[id]? with
  | some { body := .array elements, .. } => elements
  | _ => []

theorem perform_arrayLength {vm : Vm} (hc : vm.Closed) {array : Handle} {object : HeapId}
    {ε : Type} (htarget : vm.target? array = some object) :
    (arrayLength array : Action Vm ε _).perform vm =
      (.ok ((vm.elementsAt object).length : Int), vm) := by
  rw [arrayLength, perform_bind, perform_elementsBehind hc, elements?, object?, htarget,
    Option.bind_some, elementsAt]
  cases vm.heap[object]? with
  | none => rfl
  | some found =>
      obtain ⟨cls, tag, body⟩ := found
      cases body <;> rfl

end Vm

namespace Command.Object

/-- The class of an object is referred to if the object is there. -/
theorem perform_objectClassRef (object : Handle) (a : Agent) :
    (native (Vm.objectClassRef object)).perform a = (.ok .null, a) ∨
      (native (Vm.objectClassRef object)).perform a = (.error .broken, a) ∨
        ∃ cls, (native (Vm.objectClassRef object)).perform a =
          (.ok (a.vm.newLocal cls).1, a.opened cls) := by
  simp only [native, perform_within, Vm.objectClassRef, Vm.objectBehind, perform_bind, perform_look]
  cases a.vm.target? object with
  | none => exact .inl rfl
  | some id =>
      simp only [perform_bind, perform_look]
      cases a.vm.heap[id]? with
      | none => exact .inr (.inl rfl)
      | some found => exact .inr (.inr ⟨found.cls, rfl⟩)

theorem spends_withClassOf (object : Handle) {x : Handle → Command α}
    (hx : ∀ cls a, ((x cls).perform a).2 = a) : Spends (withClassOf object x) := by
  intro a hb
  have hleaves : ∀ cls b, ((requireRef cls .invalidObject >>= fun _ => x cls).perform b).2 = b := by
    refine fun cls => same_bind (fun b => ?_) fun _ => hx cls
    cases hnull : cls.isNull <;> simp [requireRef, hnull]
  rw [withClassOf, perform_bind]
  rcases perform_objectClassRef object a with hnone | hbroken | ⟨cls, hcls⟩
  · refine ⟨0, ?_⟩
    rw [hnone]
    dsimp only
    rw [perform_withLocal, hleaves]
    rfl
  · exact ⟨0, by rw [hbroken]; rfl⟩
  · refine ⟨8, ?_⟩
    rw [hcls]
    dsimp only
    rw [perform_withLocal, hleaves]
    exact congrArg a.setVm (Vm.dropLocal_newLocal_self hb cls)

theorem spends_arraySignature (array : Handle) : Spends (arraySignature array) := by
  refine spends_withClassOf array fun cls => same_bind (fun _ => rfl) fun (signature, _) => ?_
  refine same_bind (fun b => ?_) fun _ _ => rfl
  cases decide (signature.toList.head? = some '[') <;> rfl

/-- A run of elements that does not lie in the array is refused. -/
theorem perform_outside {array : Handle} {size first length : Int}
    (hsize : (native (Vm.arrayLength array)).perform a = (.ok size, a))
    (hout : ¬(0 ≤ first ∧ 0 ≤ length ∧ first + length ≤ size)) (x : Command α) :
    ∃ cause, (do
      let size ← native (Vm.arrayLength array)
      Action.guard (0 ≤ first ∧ first ≤ size) .invalidIndex
      Action.guard (0 ≤ length ∧ first + length ≤ size) .invalidLength
      x : Command α).perform a = (.error (.refused cause), a) := by
  by_cases hfirst : 0 ≤ first ∧ first ≤ size
  · have hlength : ¬(0 ≤ length ∧ first + length ≤ size) := fun h => hout ⟨hfirst.1, h⟩
    refine ⟨.invalidLength, ?_⟩
    simp only [perform_bind, hsize, decide_eq_true hfirst, decide_eq_false hlength,
      perform_guard_true, perform_guard_false]
  · refine ⟨.invalidIndex, ?_⟩
    simp only [perform_bind, hsize, decide_eq_false hfirst, perform_guard_false]

theorem refuses_outside (h : a.Intact) (hb : a.vm.RefsBounded) {array : Handle} {object : HeapId}
    (htarget : a.vm.target? array = some object) {first length : Int}
    (hout : ¬(0 ≤ first ∧ 0 ≤ length ∧ first + length ≤ (a.vm.elementsAt object).length)) :
    ∃ cause used, (do
      let signature ← arraySignature array
      let size ← native (Vm.arrayLength array)
      Action.guard (0 ≤ first ∧ first ≤ size) .invalidIndex
      Action.guard (0 ≤ length ∧ first + length ≤ size) .invalidLength
      Reading.readArray array signature first length).perform a =
        (.error (.refused cause), a.spend used) := by
  have hlooks : Looks Control.Any (arraySignature array) := looks_arraySignature array
  have hsafe : (arraySignature array).SafeAt Agent.Intact a := hlooks.safe a h
  obtain ⟨used, hused⟩ := spends_arraySignature array a hb
  have hlength : (Vm.arrayLength array : Action Vm ProtocolError _).perform (a.spend used).vm =
      (.ok ((a.vm.elementsAt object).length : Int), (a.spend used).vm) :=
    Vm.perform_arrayLength (hused ▸ hsafe.after).closed htarget
  cases hperform : (arraySignature array).perform a with
  | mk result near =>
      rw [hperform] at hused
      cases hused
      cases result with
      | ok signature =>
          have hsize : (native (Vm.arrayLength array)).perform (a.spend used) =
              (.ok ((a.vm.elementsAt object).length : Int), a.spend used) := by
            simp only [native, perform_within, hlength]
            rfl
          obtain ⟨cause, hrefused⟩ := perform_outside hsize hout
            (Reading.readArray array signature first length)
          exact ⟨cause, used, by rw [perform_bind, hperform]; exact hrefused⟩
      | error stop =>
          cases stop with
          | refused cause => exact ⟨cause, used, by rw [perform_bind, hperform]; rfl⟩
          | broken => exact absurd (congrArg Prod.fst hperform) hsafe.unbroken

/-- The elements that are read are elements of the array.  Otherwise the command is refused before
it reads any. -/
theorem arrayValues_within (h : a.Intact) (hb : a.vm.RefsBounded) (id : ObjectId)
    (first length : Int) :
    (∃ object, a.tracker.target? a.vm id = some object ∧ 0 ≤ first ∧ 0 ≤ length ∧
      first + length ≤ (a.vm.elementsAt object).length) ∨
    ∃ cause used, (arrayValues id first length).perform a =
      (.error (.refused cause), a.spend used) := by
  cases hnamed : a.tracker.target? a.vm id with
  | none => exact .inr ⟨.invalidObject, 0, perform_withRef_dead hnamed _⟩
  | some object =>
      by_cases hwithin : 0 ≤ first ∧ 0 ≤ length ∧ first + length ≤ (a.vm.elementsAt object).length
      · exact .inl ⟨object, rfl, hwithin⟩
      · right
        obtain ⟨global, -, hglobal⟩ := Option.bind_eq_some_iff.mp hnamed
        have hopened : (a.opened object).Intact :=
          h.setVm (h.closed.newRef .localRef (h.closed.target? hglobal))
        have htarget : (a.opened object).vm.target? (a.vm.newLocal object).1 = some object :=
          Vm.target?_newRef a.vm .localRef object
        obtain ⟨cause, used, hrefused⟩ := refuses_outside hopened
          ((Vm.ages_newRef a.vm .localRef object).bounded hb) htarget hwithin
        refine ⟨cause, 8 + used, ?_⟩
        rw [arrayValues, withObject, perform_withRef_live hnamed, perform_withLocal, hrefused]
        exact congrArg (fun vm => (_, a.setVm vm)) (Vm.dropLocal_newLocal_spent hb object used)

end Command.Object

/-- A reachable state is intact: what is referred to is on the heap and every counter is at least 1.
Nothing breaks there in a command of the client, in the opening of the session, in the processing of
a callback that an operation causes, or in the suspension that it calls for.  Elements of arrays are
read only where there are some. -/
theorem nothing_breaks (h : a.Reachable) :
    a.Intact ∧
    (∀ handle object, a.vm.target? handle = some object → object < a.vm.heap.size) ∧
    (∀ caller command, a.Withstands caller (ofClient caller command)) ∧
    (∀ caller canDeliver, a.Withstands caller (Agent.opening canDeliver)) ∧
    (∀ op near caller c, a.vm.Has op.objects → a.calledBack? op = some (near, caller, c) →
      near.Withstands caller (Firing.process c) ∧
        ∀ target, (answer caller (Firing.process c) near).2.Withstands .delivery
          (Delivery.applySuspension target)) ∧
    ∀ (caller : NativeThread) (id : ObjectId) (first length : Int),
      let near := a.setVm (a.vm.attach caller).2
      (∃ object, near.tracker.target? near.vm id = some object ∧ 0 ≤ first ∧ 0 ≤ length ∧
        first + length ≤ (near.vm.elementsAt object).length) ∨
      ∃ cause used, (Object.arrayValues id first length).perform near =
        (.error (.refused cause), near.spend used) := by
  have hi : a.Intact := h.intact
  refine ⟨hi, fun handle object => hi.closed.target?, fun caller command => ?_,
    fun caller canDeliver => ?_, fun op near caller c hnames hcalled => ?_,
    fun caller id first length => ?_⟩
  · exact hi.withstands (safe_ofClient caller command) caller
  · exact hi.withstands (safe_opening canDeliver) caller
  · have hnear : near.Intact := hi.calledBack hnames hcalled
    refine ⟨hnear.withstands (Firing.safe_process c) caller, fun target => ?_⟩
    exact (hnear.answer (Firing.safe_process c) caller).withstands (safe_applySuspension target) _
  · have hbounded : (a.vm.attach caller).2.RefsBounded :=
      Vm.bounded_attach h.orderly.refs caller
    exact Object.arrayValues_within (hi.setVm (hi.closed.attach caller)) hbounded id first length

/-- An array of two numbers that the client knows as object 1. -/
def arrayKnown : Agent :=
  (((Agent.start Vm.fresh {}).apply
    (.setup (.newArray "[I" [.primitive (.int 7), .primitive (.int 8)]))).apply
      (.setup (.takeRef 10))).apply (.trackNew (.client 0) ⟨0x1000⟩)

/-- Reading an array does not break, and what is read of it lies in it. -/
theorem array_known_unbroken :
    arrayKnown.Reachable ∧
      arrayKnown.Withstands (.client 0) (ofClient (.client 0) (.arrayValues 1 0 2)) ∧
      ((ofClient (.client 0) (.arrayValues 1 0 2)).perform arrayKnown).1 =
        .ok (.values [⟨.int, .int 7⟩, ⟨.int, .int 8⟩]) := by
  have hreachable : arrayKnown.Reachable :=
    .apply (.apply (.apply (.start {}) _ (by decide +kernel)) _ (by decide +kernel)) _
      (by decide +kernel)
  exact ⟨hreachable, (nothing_breaks hreachable).2.2.1 _ _, by decide +kernel⟩

end DebugAgent
