import DebugAgent.Service

/-!
# Commands that look

Most of the agent only looks at the machine: it asks, takes local references and gives them back,
and makes objects known to the client.  `Looks` says of a command that it is put together in this
way.  What such commands do to a state is then proved by induction on how they are put together, and
not command by command.

Some commands also stop or resume threads, and the boundary of a command attaches the native thread
that issues it.  Which of these a command may do is a part of the judgement, so that what follows for
those that do none of it is proved along with the rest.

What a command comes to is often a property of its results alone (`Command.Returns`), whatever the
state it is carried out in.

References have an owner.  `Opens` lists the calls that hand some out, and the only rule for such a
call is a bracket, so that no reference outlives the command that received it.
-/

namespace DebugAgent

/-- The references that come with a value. -/
def RawValue.owned : RawValue → List Handle
  | .primitive _ => []
  | .object h => [h]

namespace Command

open Reading (clearing)

/-- The references that come with a result, if there is one. -/
def ifOk {ε α : Type} (owned : α → List Handle) : Except ε α → List Handle
  | .ok a => owned a
  | .error _ => []

/-- A call that hands out local references: `owned` are those that its caller has to give back. -/
inductive Opens : {α : Type} → Command α → (owned : α → List Handle) → Prop where
  | acquire (id : ObjectId) : Opens (Tracking.acquire id) fun h => [h]
  | another (h : Handle) : Opens (touch (Vm.newLocalRef h)) fun h => [h]
  | objectClass (h : Handle) : Opens (native (Vm.objectClassRef h)) fun h => [h]
  | superclass (cls : Handle) : Opens (touch (Vm.superclassRef cls)) fun h => [h]
  | declaringClass (method : MethodId) : Opens (call (Vm.methodDeclaringClass method)) fun h => [h]
  | loadedClasses : Opens (call Vm.loadedClasses) id
  | interfaces (cls : Handle) : Opens (call (Vm.implementedInterfaces cls)) id
  | allThreads : Opens (call Vm.allThreads) id
  | threadGroups : Opens (call Vm.topThreadGroups) id
  | currentThread (caller : NativeThread) :
      Opens (tryCall (Vm.currentThread caller)) (ifOk fun h => [h])
  | threadInfo (thread : Handle) :
      Opens (call (Vm.threadInfo thread)) fun info => [info.loader, info.group]
  | localVariable (thread : Handle) (depth slot : Int) (kind : SlotKind) :
      Opens (call (Vm.getLocal thread depth slot kind)) RawValue.owned
  | receiver (thread : Handle) :
      Opens (tryCall (Vm.getLocal thread 0 0 .object)) (ifOk RawValue.owned)
  | staticField (cls : Handle) (field : FieldId) (kind : ValueKind) :
      Opens (clearing (touch (Vm.staticField cls field kind))) RawValue.owned
  | instanceField (object : Handle) (field : FieldId) (kind : ValueKind) :
      Opens (clearing (native (Vm.instanceField object field kind))) RawValue.owned
  | arrayElement (array : Handle) (index : Int) :
      Opens (clearing (native (Vm.arrayElement array index))) fun h => [h]

/-- What a command can do to threads. -/
inductive Control where
  | attach
  | stop
  | resume

/-- A command that only looks at the machine, and does to threads what it may. -/
inductive Looks (may : Control → Prop) : {α : Type} → Command α → Prop where
  | pure {α : Type} (a : α) : Looks may (pure a)
  | look {α : Type} (f : Agent → α) : Looks may (Action.look f)
  | inspect {α : Type} (f : Agent → Except ProtocolError α) : Looks may (Action.inspect f)
  | bind {α β : Type} {x : Command α} {f : α → Command β} (hx : Looks may x)
      (hf : ∀ a, Looks may (f a)) : Looks may (x >>= f)
  | bracket {α β : Type} {x : Command α} {owned : α → List Handle} {f g : α → Command β}
      (hx : Opens x owned) (hf : ∀ a, Looks may (f a)) (hg : ∀ a, g a = withLocals (owned a) (f a)) :
      Looks may (x >>= g)
  | attach (hmay : may .attach) (caller : NativeThread) : Looks may (attach caller)
  | trackNew (h : Handle) : Looks may (Tracking.trackNew h)
  | suspendThread (hmay : may .stop) (caller : NativeThread) (h : Handle) :
      Looks may (call (Vm.suspendThread caller h))
  | suspendThreads (hmay : may .stop) (caller : NativeThread) (hs : List Handle) :
      Looks may (call (Vm.suspendThreads caller hs))
  | resumeThread (hmay : may .resume) (h : Handle) : Looks may (call (Vm.resumeThread h))
  | resumeThreads (hmay : may .resume) (hs : List Handle) : Looks may (call (Vm.resumeThreads hs))
  | arrayLength (array : Handle) : Looks may (native (Vm.arrayLength array))
  | stringChars (h : Handle) : Looks may (native (Vm.stringChars h))
  | arrayRegion (array : Handle) (kind : ValueKind) (first length : Int) :
      Looks may (clearing (native (Vm.arrayRegion array kind first length)))

/-- Nothing that can be done to threads is ruled out. -/
abbrev Control.Any : Control → Prop := fun _ => True

/-- Native threads may be attached, and threads are left alone. -/
abbrev Control.Attaches : Control → Prop := fun control => control = .attach

variable {may more : Control → Prop} {α β : Type}

/-- A command that does less is one that may do more. -/
theorem Looks.mono (hmore : ∀ control, may control → more control) {x : Command α}
    (h : Looks may x) : Looks more x := by
  induction h with
  | pure a => exact .pure a
  | look f => exact .look f
  | inspect f => exact .inspect f
  | bind _ _ ihx ihf => exact .bind ihx ihf
  | bracket hx _ hg ih => exact .bracket hx ih hg
  | attach hmay caller => exact .attach (hmore _ hmay) caller
  | trackNew h => exact .trackNew h
  | suspendThread hmay caller h => exact .suspendThread (hmore _ hmay) caller h
  | suspendThreads hmay caller hs => exact .suspendThreads (hmore _ hmay) caller hs
  | resumeThread hmay h => exact .resumeThread (hmore _ hmay) h
  | resumeThreads hmay hs => exact .resumeThreads (hmore _ hmay) hs
  | arrayLength array => exact .arrayLength array
  | stringChars h => exact .stringChars h
  | arrayRegion array kind first length => exact .arrayRegion array kind first length

theorem Looks.any {x : Command α} (h : Looks may x) : Looks Control.Any x :=
  h.mono fun _ _ => trivial

/-! ### Ways of putting commands together -/

theorem looks_refuse (cause : ProtocolError) : Looks may (Action.refuse cause : Command α) :=
  .inspect fun _ => .error cause

theorem looks_ofExcept (r : Except ProtocolError α) : Looks may (Action.ofExcept r) := .inspect _

theorem looks_ask (query : Vm → Except JvmtiError α) : Looks may (ask query) := .inspect _

theorem looks_tryAsk (query : Vm → Except JvmtiError α) : Looks may (tryAsk query) := .look _

theorem looks_see (f : Vm → α) : Looks may (see f) := .look _

theorem looks_require (cause : ProtocolError) (a? : Option α) :
    Looks may (Action.require cause a?) := by
  cases a? with
  | some a => exact .pure a
  | none => exact looks_refuse cause

theorem looks_guard (condition : Bool) (cause : ProtocolError) :
    Looks may (Action.guard condition cause) := by
  cases condition with
  | true => exact .pure ()
  | false => exact looks_refuse cause

theorem looks_requireRef (h : Handle) (cause : ProtocolError) : Looks may (requireRef h cause) :=
  looks_guard _ cause

theorem looks_ite {c : Prop} [Decidable c] {x y : Command α} (hx : Looks may x) (hy : Looks may y) :
    Looks may (if c then x else y) := by
  split
  · exact hx
  · exact hy

theorem looks_map (f : α → β) {x : Command α} (hx : Looks may x) : Looks may (f <$> x) := by
  rw [map_eq_pure_bind]
  exact .bind hx fun a => .pure (f a)

theorem looks_mapM {f : α → Command β} (hf : ∀ a, Looks may (f a)) (as : List α) :
    Looks may (as.mapM f) := by
  induction as with
  | nil => exact .pure []
  | cons a as ih =>
      rw [List.mapM_cons]
      exact .bind (hf a) fun b => .bind ih fun bs => .pure (b :: bs)

theorem looks_allM {f : α → Command Bool} (hf : ∀ a, Looks may (f a)) (as : List α) :
    Looks may (as.allM f) := by
  induction as with
  | nil => exact .pure true
  | cons a as ih =>
      apply Looks.bind (hf a)
      intro holds
      cases holds with
      | true => exact ih
      | false => exact .pure false

theorem withLocals_nil (x : Command α) : withLocals [] x = x := rfl

/-- A call that hands out references, with what is done about each of its results.  Whatever that
is, it gives the references back after it has looked. -/
theorem looks_bracket {x : Command α} {owned : α → List Handle} {g : α → Command β}
    (hx : Opens x owned) (hg : ∀ a, ∃ y, g a = withLocals (owned a) y ∧ Looks may y) :
    Looks may (x >>= g) :=
  .bracket hx (fun a => (hg a).choose_spec.2) fun a => (hg a).choose_spec.1

/-- A call that hands out one reference, with the command that owns it. -/
theorem looks_owning {x : Command Handle} {f : Handle → Command α} (hx : Opens x fun h => [h])
    (hf : ∀ h, Looks may (f h)) : Looks may (x >>= fun h => withLocal h (f h)) :=
  .bracket hx hf fun _ => rfl

/-- A call that hands out a list of references, with the command that owns them. -/
theorem looks_owningAll {x : Command (List Handle)} {f : List Handle → Command α}
    (hx : Opens x id) (hf : ∀ hs, Looks may (f hs)) :
    Looks may (x >>= fun hs => withLocals hs (f hs)) :=
  .bracket hx hf fun _ => rfl

end Command

/-! ### The results of a command -/

/-- The command comes to such results only. -/
def Command.Returns {α : Type} (x : Command α) (P : α → Prop) : Prop :=
  ∀ a r b, x.perform a = (.ok r, b) → P r

section Returns

open Command Tracking

variable {α β : Type} {P : α → Prop} {Q : β → Prop}

theorem returns_pure {r : α} (h : P r) : (pure r : Command α).Returns P := by
  intro a r b hperform
  cases hperform
  exact h

theorem returns_bind {x : Command α} {f : α → Command β} (hx : x.Returns P)
    (hf : ∀ r, P r → (f r).Returns Q) : (x >>= f).Returns Q := by
  intro a r b hperform
  rw [Action.perform_bind] at hperform
  cases hfirst : x.perform a with
  | mk first near =>
      rw [hfirst] at hperform
      cases first with
      | error stop => cases hperform
      | ok s => exact hf s (hx a s near hfirst) near r b hperform

/-- What a command has come to before makes no difference. -/
theorem returns_after {x : Command α} {f : α → Command β} (hf : ∀ r, (f r).Returns Q) :
    (x >>= f).Returns Q :=
  returns_bind (P := fun _ => True) (fun _ _ _ _ => trivial) fun r _ => hf r

theorem returns_map (f : α → β) (x : Command α) (hf : ∀ r, Q (f r)) : (f <$> x).Returns Q := by
  rw [map_eq_pure_bind]
  exact returns_after fun r => returns_pure (hf r)

theorem returns_guard (condition : Bool) (cause : ProtocolError) :
    Command.Returns (Action.guard condition cause) fun _ => condition = true := by
  intro a r b hperform
  cases condition with
  | true => rfl
  | false => cases hperform

theorem returns_withLocal {h : Handle} {x : Command α} (hx : x.Returns P) :
    (withLocal h x).Returns P := by
  intro a r b hperform
  have hresult : (x.perform a).1 = .ok r := (Prod.ext_iff.mp hperform).1
  exact hx a r (x.perform a).2 (Prod.ext hresult rfl)

theorem returns_withRef {id : ObjectId} {cause : ProtocolError} {x : Handle → Command α}
    (hx : ∀ h, (x h).Returns P) : (withRef id cause x).Returns P :=
  returns_after fun h => returns_withLocal (returns_after fun _ => hx h)

theorem returns_withThread {id : ObjectId} {x : Handle → Command α} (hx : ∀ h, (x h).Returns P) :
    (withThread id x).Returns P :=
  returns_after fun h => returns_withLocal (returns_after fun _ => returns_after fun _ => hx h)

end Returns

/-! ### From references to identifiers and back -/

namespace Tracking

open Command

variable {may : Control → Prop} {α : Type}

theorem looks_trackObject (h : Handle) (declared : TypeTag) :
    Looks may (trackObject h declared) := by
  apply looks_ite
  · exact .pure _
  · apply looks_owning (.objectClass h)
    intro cls
    exact .bind (looks_requireRef cls _) fun _ => .bind (looks_ask _) fun _ =>
      .bind (.trackNew h) fun _ => .pure _

theorem looks_trackClass (h : Handle) : Looks may (trackClass h) :=
  .bind (looks_requireRef h _) fun _ => .bind (looks_ask _) fun _ => .bind (looks_ask _) fun _ =>
    .bind (.trackNew h) fun _ => .pure _

theorem looks_withRef (id : ObjectId) (cause : ProtocolError) {x : Handle → Command α}
    (hx : ∀ h, Looks may (x h)) : Looks may (withRef id cause x) :=
  looks_owning (.acquire id) fun h => .bind (looks_requireRef h cause) fun _ => hx h

theorem looks_withObject (id : ObjectId) {x : Handle → Command α} (hx : ∀ h, Looks may (x h)) :
    Looks may (withObject id x) :=
  looks_withRef id _ hx

theorem looks_withClass (id : ObjectId) {x : Handle → Command α} (hx : ∀ h, Looks may (x h)) :
    Looks may (withClass id x) :=
  looks_withRef id _ hx

theorem looks_withThread (id : ObjectId) {x : Handle → Command α} (hx : ∀ h, Looks may (x h)) :
    Looks may (withThread id x) :=
  looks_owning (.acquire id) fun h =>
    .bind (looks_see _) fun _ => .bind (looks_guard _ _) fun _ => hx h

end Tracking

end DebugAgent
