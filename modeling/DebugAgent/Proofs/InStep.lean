import DebugAgent.Proofs.Renumbered
import DebugAgent.Request.Registration
import DebugAgent.Suspension

/-!
# Agents in step

Two agents on machines that differ only in the numbers of their references, with the same
identifiers in use and the same requests, are in step: the same command comes to the same on both
and leaves them in step.  The filters of a request may be in another order.

This module is about what commands are made of: tracking, reading, stopping and registering.
-/

namespace DebugAgent

open DebugAgent.Action Command

/-! ### The relation -/

/-- Results that are alike are so in another way as well. -/
theorem rel_imp {α β : Type} {R S : α → β → Prop} {x : Option α} {y : Option β}
    (h : Option.Rel R x y) (hRS : ∀ {r s}, x = some r → y = some s → R r s → S r s) :
    Option.Rel S x y := by
  cases h with
  | none => exact .none
  | some h => exact .some (hRS rfl rfl h)

/-- Two tables have the same keys, and their entries are alike. -/
structure Table.Alike {κ α β : Type} [DecidableEq κ] (R : α → β → Prop) (t : Table κ α)
    (t' : Table κ β) : Prop where
  get? : ∀ k, Option.Rel R (t.get? k) (t'.get? k)

namespace Table.Alike

variable {κ α β : Type} [DecidableEq κ] {R : α → β → Prop} {t : Table κ α} {t' : Table κ β}

theorem insert (h : t.Alike R t') (k : κ) {a : α} {b : β} (hab : R a b) :
    (t.insert k a).Alike R (t'.insert k b) := by
  refine ⟨fun k' => ?_⟩
  rw [get?_insert, get?_insert]
  split
  · exact .some hab
  · exact h.get? k'

theorem erase (h : t.Alike R t') (k : κ) : (t.erase k).Alike R (t'.erase k) := by
  refine ⟨fun k' => ?_⟩
  rw [get?_erase, get?_erase]
  split
  · exact .none
  · exact h.get? k'

theorem imp {S : α → β → Prop} (h : t.Alike R t') (hRS : ∀ {k a b}, t.get? k = some a →
    t'.get? k = some b → R a b → S a b) : t.Alike S t' :=
  ⟨fun k => rel_imp (h.get? k) hRS⟩

end Table.Alike

/-- An identifier that stands for the same object and has been handed out as often. -/
structure Tracked.Paired (p : Pairing) (entry entry' : Tracked) : Prop where
  global : p.stands entry.global entry'.global
  references : entry'.references = entry.references

structure Tracker.Paired (p : Pairing) (t t' : Tracker) : Prop where
  nextId : t'.nextId = t.nextId
  entries : t.entries.Alike (Tracked.Paired p) t'.entries

/-- Requests that differ at most in the order of their filters. -/
structure Request.Twin (r r' : Request) : Prop where
  id : r'.id = r.id
  kind : r'.kind = r.kind
  policy : r'.policy = r.policy
  filters : r.filters.Perm r'.filters
  registration : r'.registration = r.registration

theorem Request.Twin.refl (r : Request) : r.Twin r := ⟨rfl, rfl, rfl, .refl _, rfl⟩

structure Notification.Paired (p : Pairing) (n n' : Notification) : Prop where
  count : n'.count = n.count
  thread : Option.Rel p.stands n.thread n'.thread

structure RequestTable.Paired (p : Pairing) (t t' : RequestTable) : Prop where
  nextId : t'.nextId = t.nextId
  requests : List.Forall₂ Request.Twin t.requests t'.requests
  breakpoints : t'.breakpoints = t.breakpoints
  notifications : t.notifications.Alike (Notification.Paired p) t'.notifications

/-- Two agents that differ at most in the numbers of references and the order of filters. -/
structure Agent.Paired (p : Pairing) (a b : Agent) : Prop where
  vm : a.vm.Paired p b.vm
  config : b.config = a.config
  tracker : a.tracker.Paired p b.tracker
  requests : a.requests.Paired p b.requests
  session : b.session = a.session

variable {p : Pairing} {a b : Agent} {h k : Handle} {α β : Type} {R : α → β → Prop}

namespace Agent.Paired

theorem setVm (hp : a.Paired p b) {vm vm' : Vm} (hv : vm.Paired p vm') :
    (a.setVm vm).Paired p (b.setVm vm') :=
  ⟨hv, hp.config, hp.tracker, hp.requests, hp.session⟩

theorem setTracker (hp : a.Paired p b) {t t' : Tracker} (ht : t.Paired p t') :
    Agent.Paired p { a with tracker := t } { b with tracker := t' } :=
  ⟨hp.vm, hp.config, ht, hp.requests, hp.session⟩

theorem setRequests (hp : a.Paired p b) {t t' : RequestTable} (ht : t.Paired p t') :
    Agent.Paired p { a with requests := t } { b with requests := t' } :=
  ⟨hp.vm, hp.config, hp.tracker, ht, hp.session⟩

theorem setSession (hp : a.Paired p b) {s s' : Option Session} (hs : s' = s) :
    Agent.Paired p { a with session := s } { b with session := s' } :=
  ⟨hp.vm, hp.config, hp.tracker, hp.requests, hs⟩

end Agent.Paired

theorem Vm.Paired.dropLocals {vm vm' : Vm} (hv : vm.Paired p vm') {hs ks : List Handle}
    (hks : List.Forall₂ p.stands hs ks) :
    (hs.foldl dropLocal vm).Paired p (ks.foldl dropLocal vm') := by
  induction hks generalizing vm vm' with
  | nil => exact hv
  | @cons h k hs ks hk _ ih =>
      refine ih ?_
      rw [dropLocal, dropLocal, p.isNull_eq hk]
      split
      · exact hv
      · exact hv.deleteRef hk .localRef

namespace Command

/-! ### The machine seen from a command -/

section Machine

theorem lockstep_part {ε : Type} {x : Action Vm ε α} {y : Action Vm ε β}
    (hx : Lockstep (Vm.Paired p) R x y) :
    Lockstep (Agent.Paired p) R (x.within Agent.vm Agent.setVm) (y.within Agent.vm Agent.setVm) :=
  lockstep_within (T := Agent.Paired p) (fun hp => hp.vm) (fun hp hv => hp.setVm hv) hx

theorem lockstep_call {x : Call α} {y : Call β} (hx : Lockstep (Vm.Paired p) R x y) :
    Lockstep (Agent.Paired p) R (call x) (call y) :=
  lockstep_part (lockstep_mapCause hx)

theorem lockstep_tryCall {x : Call α} {y : Call β} (hx : Lockstep (Vm.Paired p) R x y) :
    Lockstep (Agent.Paired p) (Agree R) (tryCall x) (tryCall y) :=
  lockstep_part (lockstep_attempt hx)

theorem lockstep_tryCall_eq {x y : Call α} (hx : Lockstep (Vm.Paired p) Eq x y) :
    Lockstep (Agent.Paired p) Eq (tryCall x) (tryCall y) :=
  lockstep_part (lockstep_attempt_eq hx)

theorem lockstep_native {x : Action Vm ProtocolError α} {y : Action Vm ProtocolError β}
    (hx : Lockstep (Vm.Paired p) R x y) : Lockstep (Agent.Paired p) R (native x) (native y) :=
  lockstep_part hx

theorem lockstep_ask {query query' : Vm → Except JvmtiError α}
    (hquery : ∀ {vm vm' : Vm}, vm.Paired p vm' → query' vm' = query vm) :
    Lockstep (Agent.Paired p) Eq (ask query) (ask query') :=
  lockstep_inspect fun hp => by rw [hquery hp.vm]

/-- A query that does not depend on references. -/
theorem lockstep_ask_same {query : Vm → Except JvmtiError α}
    (hquery : ∀ vm refs lastRef, query { vm with refs, lastRef } = query vm) :
    Lockstep (Agent.Paired p) Eq (ask query) (ask query) :=
  lockstep_ask fun hv => hv.same hquery

theorem lockstep_tryAsk {query query' : Vm → Except JvmtiError α}
    (hquery : ∀ {vm vm' : Vm}, vm.Paired p vm' → query' vm' = query vm) :
    Lockstep (Agent.Paired p) Eq (tryAsk query) (tryAsk query') :=
  lockstep_look fun hp => (hquery hp.vm).symm

theorem lockstep_see {f : Vm → α} {g : Vm → β}
    (hf : ∀ {vm vm' : Vm}, vm.Paired p vm' → R (f vm) (g vm')) :
    Lockstep (Agent.Paired p) R (see f) (see g) :=
  lockstep_look fun hp => hf hp.vm

theorem lockstep_see_same {f : Vm → α}
    (hf : ∀ vm refs lastRef, f { vm with refs, lastRef } = f vm) :
    Lockstep (Agent.Paired p) Eq (see f) (see f) :=
  lockstep_see fun hv => (hv.same hf).symm

theorem lockstep_touch {f : Vm → α × Vm} {g : Vm → β × Vm}
    (hf : ∀ {vm vm' : Vm}, vm.Paired p vm' → R (f vm).1 (g vm').1 ∧ (f vm).2.Paired p (g vm').2) :
    Lockstep (Agent.Paired p) R (touch f) (touch g) :=
  lockstep_update fun hp => ⟨(hf hp.vm).1, hp.setVm (hf hp.vm).2⟩

theorem lockstep_adjust {f g : Vm → Vm}
    (hf : ∀ {vm vm' : Vm}, vm.Paired p vm' → (f vm).Paired p (g vm')) :
    Lockstep (Agent.Paired p) Eq (adjust f) (adjust g) :=
  lockstep_change fun hp => hp.setVm (hf hp.vm)

theorem lockstep_withLocals {hs ks : List Handle} (hks : List.Forall₂ p.stands hs ks)
    {x : Command α} {y : Command β} (hx : Lockstep (Agent.Paired p) R x y) :
    Lockstep (Agent.Paired p) R (withLocals hs x) (withLocals ks y) :=
  lockstep_ensuring hx fun hp => hp.setVm (hp.vm.dropLocals hks)

theorem lockstep_withLocal (hk : p.stands h k) {x : Command α} {y : Command β}
    (hx : Lockstep (Agent.Paired p) R x y) :
    Lockstep (Agent.Paired p) R (withLocal h x) (withLocal k y) :=
  lockstep_withLocals (.cons hk .nil) hx

theorem lockstep_requireRef (hk : p.stands h k) (cause : ProtocolError) :
    Lockstep (Agent.Paired p) Eq (requireRef h cause) (requireRef k cause) := by
  rw [requireRef, requireRef, p.isNull_eq hk]
  exact lockstep_guard _ cause

theorem lockstep_attach (caller : NativeThread) :
    Lockstep (Agent.Paired p) Eq (attach caller) (attach caller) :=
  lockstep_bind_eq (lockstep_see_same fun _ _ _ => rfl) fun _ =>
    lockstep_bind_eq (lockstep_guard _ _) fun _ => lockstep_adjust fun hv => hv.attach caller

end Machine

end Command

/-- What commands in step are answered, and what they leave. -/
theorem Agent.Paired.answer {x : Command α} {y : Command β}
    (hx : Lockstep (Agent.Paired p) R x y) (caller : NativeThread) (hp : a.Paired p b) :
    Agree R (Command.answer caller x a).1 (Command.answer caller y b).1 ∧
      (Command.answer caller x a).2.Paired p (Command.answer caller y b).2 := by
  have halike := (lockstep_bind_eq (lockstep_attach caller) fun _ => hx).alike hp
  rw [← seqRight_eq_bind, ← seqRight_eq_bind] at halike
  rw [Command.answer, Command.answer]
  generalize (Command.attach caller *> x).perform a = outcome at halike
  generalize (Command.attach caller *> y).perform b = outcome' at halike
  cases halike with
  | results hstates hresults => exact ⟨.ok hresults, hstates⟩
  | @stops stop _ _ hstates => cases stop <;> exact ⟨.error _, hstates⟩

/-! ### Tracking objects -/

namespace Tracker.Paired

variable {t t' : Tracker}

theorem global? (ht : t.Paired p t') (id : ObjectId) :
    Option.Rel p.stands (t.global? id) (t'.global? id) := by
  have hentry := ht.entries.get? id
  rw [Tracker.global?, Tracker.global?]
  generalize t.entries.get? id = entry at hentry
  generalize t'.entries.get? id = entry' at hentry
  cases hentry with
  | none => exact .none
  | some he => exact .some he.global

theorem setReferences (ht : t.Paired p t') (id : ObjectId) {entry entry' : Tracked}
    (he : entry.Paired p entry') (references : Nat) :
    (t.setReferences id entry references).Paired p (t'.setReferences id entry' references) :=
  ⟨ht.nextId, ht.entries.insert id ⟨he.global, rfl⟩⟩

theorem remove (ht : t.Paired p t') (id : ObjectId) : (t.remove id).Paired p (t'.remove id) :=
  ⟨ht.nextId, ht.entries.erase id⟩

theorem add (ht : t.Paired p t') (hk : p.stands h k) : (t.add h).Paired p (t'.add k) := by
  refine ⟨congrArg (· + 1) ht.nextId, ?_⟩
  rw [Tracker.add, Tracker.add, ht.nextId]
  exact ht.entries.insert t.nextId ⟨hk, rfl⟩

end Tracker.Paired

namespace Tracking

theorem lockstep_tracker :
    Lockstep (Agent.Paired p) (Tracker.Paired p) (Action.look Agent.tracker : Command Tracker)
      (Action.look Agent.tracker) :=
  lockstep_look fun hp => hp.tracker

theorem lockstep_setTracker {t t' : Tracker} (ht : t.Paired p t') :
    Lockstep (Agent.Paired p) Eq (setTracker t) (setTracker t') :=
  lockstep_change fun hp => hp.setTracker ht

theorem lockstep_trackNew (hk : p.stands h k) :
    Lockstep (Agent.Paired p) Eq (trackNew h) (trackNew k) := by
  rw [trackNew, trackNew, p.isNull_eq hk]
  refine lockstep_ite (lockstep_pure rfl) ?_
  refine lockstep_bind_eq (lockstep_call (Vm.lockstep_getTag hk)) fun tag => ?_
  refine lockstep_bind lockstep_tracker fun {t t'} ht => ?_
  have hentry : Option.Rel (Tracked.Paired p)
      (if 0 < tag then t.entries.get? tag.toNat else none)
      (if 0 < tag then t'.entries.get? tag.toNat else none) := by
    split
    · exact ht.entries.get? tag.toNat
    · exact .none
  generalize (if 0 < tag then t.entries.get? tag.toNat else none) = entry at hentry
  generalize (if 0 < tag then t'.entries.get? tag.toNat else none) = entry' at hentry
  cases hentry with
  | some he =>
      simp only [he.references]
      exact lockstep_bind_eq (lockstep_setTracker (ht.setReferences _ he _)) fun _ =>
        lockstep_pure rfl
  | none =>
      simp only [ht.nextId]
      refine lockstep_bind_eq (lockstep_call (Vm.lockstep_setTag hk _)) fun _ => ?_
      refine lockstep_bind (lockstep_touch fun hv => hv.newGlobalRef hk) fun hglobal => ?_
      refine lockstep_bind_eq (lockstep_requireRef hglobal _) fun _ => ?_
      exact lockstep_bind_eq (lockstep_setTracker (ht.add hglobal)) fun _ => lockstep_pure rfl

/-- The signature of a class, whatever the number of the reference to it. -/
theorem lockstep_classSignature (hk : p.stands h k) :
    Lockstep (Agent.Paired p) Eq (ask fun vm => vm.classSignature h)
      (ask fun vm => vm.classSignature k) :=
  lockstep_ask fun hv => by rw [Vm.classSignature, Vm.classSignature, hv.classOf hk]

theorem lockstep_trackObject (hk : p.stands h k) (declared : TypeTag) :
    Lockstep (Agent.Paired p) Eq (trackObject h declared) (trackObject k declared) := by
  rw [trackObject, trackObject, p.isNull_eq hk]
  refine lockstep_ite (lockstep_pure rfl) ?_
  refine lockstep_bind (lockstep_native (Vm.lockstep_objectClassRef hk)) fun hcls => ?_
  refine lockstep_withLocal hcls (lockstep_bind_eq (lockstep_requireRef hcls _) fun _ => ?_)
  refine lockstep_bind_eq (lockstep_classSignature hcls) fun _ => ?_
  exact lockstep_bind_eq (lockstep_trackNew hk) fun _ => lockstep_pure rfl

theorem lockstep_trackClass (hk : p.stands h k) :
    Lockstep (Agent.Paired p) Eq (trackClass h) (trackClass k) :=
  lockstep_bind_eq (lockstep_requireRef hk _) fun _ =>
    lockstep_bind_eq (lockstep_ask fun hv => by
        rw [Vm.isArrayClass, Vm.isArrayClass, hv.classOf hk]) fun _ =>
      lockstep_bind_eq (lockstep_ask fun hv => by
          rw [Vm.isInterface, Vm.isInterface, hv.classOf hk]) fun _ =>
        lockstep_bind_eq (lockstep_trackNew hk) fun _ => lockstep_pure rfl

theorem lockstep_acquire (id : ObjectId) :
    Lockstep (Agent.Paired p) p.stands (acquire id) (acquire id) := by
  refine lockstep_bind lockstep_tracker fun {t t'} ht => ?_
  have hglobal := ht.global? id
  generalize t.global? id = global at hglobal
  generalize t'.global? id = global' at hglobal
  cases hglobal with
  | none => exact lockstep_pure p.null
  | some hk => exact lockstep_touch fun hv => hv.newLocalRef hk

theorem lockstep_withRef (id : ObjectId) (cause : ProtocolError) {x : Handle → Command α}
    {y : Handle → Command β}
    (hx : ∀ {h k}, p.stands h k → Lockstep (Agent.Paired p) R (x h) (y k)) :
    Lockstep (Agent.Paired p) R (withRef id cause x) (withRef id cause y) :=
  lockstep_bind (lockstep_acquire id) fun hk =>
    lockstep_withLocal hk (lockstep_bind_eq (lockstep_requireRef hk cause) fun _ => hx hk)

theorem isAlive_eq {vm vm' : Vm} (hv : vm.Paired p vm') (hk : p.stands h k) :
    isAlive vm' k = isAlive vm h := by
  rw [isAlive, isAlive, p.isNull_eq hk, Vm.threadStateOf, Vm.threadStateOf, hv.threadOf hk]

theorem lockstep_withThread (id : ObjectId) {x : Handle → Command α} {y : Handle → Command β}
    (hx : ∀ {h k}, p.stands h k → Lockstep (Agent.Paired p) R (x h) (y k)) :
    Lockstep (Agent.Paired p) R (withThread id x) (withThread id y) :=
  lockstep_bind (lockstep_acquire id) fun hk =>
    lockstep_withLocal hk
      (lockstep_bind_eq (lockstep_see fun hv => (isAlive_eq hv hk).symm) fun _ =>
        lockstep_bind_eq (lockstep_guard _ _) fun _ => hx hk)

theorem paired_forget (hp : a.Paired p b) (id : ObjectId) {entry entry' : Tracked}
    (he : entry.Paired p entry') : (forget id entry a).Paired p (forget id entry' b) :=
  (hp.setTracker (hp.tracker.remove id)).setVm (hp.vm.deleteRef he.global .globalRef)

/-- The entry of an identifier that is in use. -/
theorem lockstep_requireEntry {cause : ProtocolError} {entry entry' : Option Tracked}
    (he : Option.Rel (Tracked.Paired p) entry entry') :
    Lockstep (Agent.Paired p) (Tracked.Paired p) (Action.require cause entry)
      (Action.require cause entry') := by
  cases he with
  | none => exact lockstep_refuse cause
  | some he => exact lockstep_pure he

theorem lockstep_release (id : ObjectId) :
    Lockstep (Agent.Paired p) Eq (release id) (release id) :=
  lockstep_bind lockstep_tracker fun ht =>
    lockstep_bind (lockstep_requireEntry (ht.entries.get? id)) fun he =>
      lockstep_change fun hp => paired_forget hp id he

theorem lockstep_dispose (id : ObjectId) (count : Nat) :
    Lockstep (Agent.Paired p) Eq (dispose id count) (dispose id count) := by
  refine lockstep_bind lockstep_tracker fun ht => ?_
  refine lockstep_bind (lockstep_requireEntry (ht.entries.get? id)) fun he => ?_
  simp only [he.references]
  exact lockstep_ite (lockstep_change fun hp => paired_forget hp id he)
    (lockstep_setTracker (ht.setReferences id he _))

end Tracking

/-! ### Positions in code -/

namespace Positions

theorem lockstep_withDeclaringClass (method : MethodId) {x y : Handle → Command α}
    (hx : ∀ {h k}, p.stands h k → Lockstep (Agent.Paired p) Eq (x h) (y k)) :
    Lockstep (Agent.Paired p) Eq (withDeclaringClass method x) (withDeclaringClass method y) :=
  lockstep_bind (lockstep_call (Vm.lockstep_methodDeclaringClass method)) fun hcls =>
    lockstep_withLocal hcls
      (lockstep_bind_eq (lockstep_requireRef hcls _) fun _ => hx hcls)

theorem lockstep_locationIn (hk : p.stands h k) (method : MethodId) (index : CodeIndex) :
    Lockstep (Agent.Paired p) Eq (locationIn h method index) (locationIn k method index) :=
  lockstep_bind_eq (Tracking.lockstep_trackClass hk) fun _ => lockstep_pure rfl

theorem lockstep_locate (method : MethodId) (index : CodeIndex) :
    Lockstep (Agent.Paired p) Eq (locate method index) (locate method index) :=
  lockstep_withDeclaringClass method fun hk => lockstep_locationIn hk method index

end Positions

/-! ### Reading values -/

namespace Reading

/-- The same class or object, whatever the number of the reference to it. -/
inductive FieldOwner.Paired (p : Pairing) : FieldOwner → FieldOwner → Prop where
  | inClass {h k : Handle} (hk : p.stands h k) : Paired p (.inClass h) (.inClass k)
  | inObject {h k : Handle} (hk : p.stands h k) : Paired p (.inObject h) (.inObject k)

theorem lockstep_wrap (tag : TypeTag) {raw raw' : RawValue} (hraw : raw.Paired p raw') :
    Lockstep (Agent.Paired p) Eq (wrap tag raw) (wrap tag raw') := by
  cases hraw with
  | primitive v => exact lockstep_ofExcept _
  | object hk =>
      exact lockstep_withLocal hk
        (lockstep_bind_eq (Tracking.lockstep_trackObject hk tag) fun _ => lockstep_pure rfl)

theorem lockstep_clearing {x : Command α} {y : Command β}
    (hx : Lockstep (Agent.Paired p) R x y) :
    Lockstep (Agent.Paired p) R (clearing x) (clearing y) :=
  lockstep_bind hx fun hr =>
    lockstep_bind_eq (lockstep_adjust fun hv => hv.change fun _ _ _ => rfl) fun _ =>
      lockstep_pure hr

theorem lockstep_readField {owner owner' : FieldOwner} (ho : owner.Paired p owner')
    (field : FieldId) (signature : String) :
    Lockstep (Agent.Paired p) Eq (readField owner field signature)
      (readField owner' field signature) := by
  refine lockstep_bind_eq (lockstep_ofExcept _) fun tag => ?_
  refine lockstep_bind_eq (lockstep_ofExcept _) fun kind => ?_
  cases ho with
  | inClass hk =>
      exact lockstep_bind (lockstep_clearing (lockstep_touch fun hv => hv.staticField hk _ _))
        fun hraw => lockstep_wrap tag hraw
  | inObject hk =>
      exact lockstep_bind (lockstep_clearing (lockstep_native (Vm.lockstep_instanceField hk _ _)))
        fun hraw => lockstep_wrap tag hraw

theorem lockstep_readElement (hk : p.stands h k) (tag : TypeTag) (index : Int) :
    Lockstep (Agent.Paired p) Eq (readElement h tag index) (readElement k tag index) :=
  lockstep_bind (lockstep_clearing (lockstep_native (Vm.lockstep_arrayElement hk index)))
    fun hk => lockstep_wrap tag (.object hk)

theorem lockstep_readArray (hk : p.stands h k) (signature : String) (first length : Int) :
    Lockstep (Agent.Paired p) Eq (readArray h signature first length)
      (readArray k signature first length) := by
  refine lockstep_bind_eq (lockstep_ofExcept _) fun component => ?_
  refine lockstep_bind_eq (lockstep_ofExcept _) fun tag => ?_
  refine lockstep_ite ?_ ?_
  · exact lockstep_mapM_same (fun _ => lockstep_readElement hk tag _) _
  · refine lockstep_bind_eq (lockstep_ofExcept _) fun kind => ?_
    refine lockstep_bind_eq
      (lockstep_clearing (lockstep_native (Vm.lockstep_arrayRegion hk kind first length)))
      fun region => ?_
    exact lockstep_bind_eq (lockstep_guard _ _) fun _ => lockstep_ofExcept _

theorem lockstep_readLocal (hk : p.stands h k) (depth slot : Int) (signature : String) :
    Lockstep (Agent.Paired p) Eq (readLocal h depth slot signature)
      (readLocal k depth slot signature) :=
  lockstep_bind_eq (lockstep_ofExcept _) fun tag =>
    lockstep_bind_eq (lockstep_ofExcept _) fun kind =>
      lockstep_bind (lockstep_call (Vm.lockstep_getLocal hk depth slot kind)) fun hraw =>
        lockstep_wrap tag hraw

end Reading

/-! ### Stopping threads -/

namespace Suspension

theorem paired_others {vm vm' : Vm} (hv : vm.Paired p vm') (hk : p.stands h k)
    {hs ks : List Handle} (hks : List.Forall₂ p.stands hs ks) :
    List.Forall₂ p.stands (others vm h hs) (others vm' k ks) := by
  induction hks with
  | nil => exact .nil
  | @cons first first' hs ks hfirst _ ih =>
      have hsame : (k.isNull || !vm'.isSameObject first' k) =
          (h.isNull || !vm.isSameObject first h) := by
        rw [p.isNull_eq hk, hv.isSameObject hfirst hk]
      rw [others, others, List.filter_cons, List.filter_cons, hsame]
      split
      · exact .cons hfirst ih
      · exact ih

theorem lockstep_suspendAll (caller : NativeThread) :
    Lockstep (Agent.Paired p) Eq (suspendAll caller) (suspendAll caller) := by
  have hrest : ∀ {h k}, p.stands h k → Lockstep (Agent.Paired p) Eq
      (withLocal h do
        let threads ← call Vm.allThreads
        withLocals threads do
          let targets ← see fun vm => others vm h threads
          let _ ← call (Vm.suspendThreads caller targets))
      (withLocal k do
        let threads ← call Vm.allThreads
        withLocals threads do
          let targets ← see fun vm => others vm k threads
          let _ ← call (Vm.suspendThreads caller targets)) := fun hk =>
    lockstep_withLocal hk <|
      lockstep_bind (lockstep_call Vm.lockstep_allThreads) fun hks =>
        lockstep_withLocals hks <|
          lockstep_bind (lockstep_see fun hv => paired_others hv hk hks) fun htargets =>
            lockstep_bind_eq (lockstep_call (Vm.lockstep_suspendThreads htargets caller))
              fun _ => lockstep_pure rfl
  refine lockstep_bind (lockstep_tryCall (Vm.lockstep_currentThread caller)) fun hcurrent => ?_
  cases hcurrent with
  | ok hk => exact hrest hk
  | error => exact hrest p.null

theorem lockstep_resumeAll : Lockstep (Agent.Paired p) Eq resumeAll resumeAll :=
  lockstep_bind (lockstep_call Vm.lockstep_allThreads) fun hks =>
    lockstep_withLocals hks
      (lockstep_bind_eq (lockstep_call (Vm.lockstep_resumeThreads hks)) fun _ => lockstep_pure rfl)

theorem lockstep_suspend (caller : NativeThread) (thread : ObjectId) :
    Lockstep (Agent.Paired p) Eq (suspend caller thread) (suspend caller thread) :=
  Tracking.lockstep_withThread thread fun hk =>
    lockstep_call (Vm.lockstep_suspendThread hk caller)

theorem lockstep_resume (thread : ObjectId) :
    Lockstep (Agent.Paired p) Eq (resume thread) (resume thread) :=
  Tracking.lockstep_withThread thread fun hk => lockstep_call (Vm.lockstep_resumeThread hk)

end Suspension

/-! ### Registering requests -/

namespace RequestTable.Paired

variable {t t' : RequestTable}

/-- A choice by what twins have in common. -/
theorem filter {requests requests' : List Request}
    (h : List.Forall₂ Request.Twin requests requests') {keep keep' : Request → Bool}
    (hkeep : ∀ {r r'}, r.Twin r' → keep' r' = keep r) :
    List.Forall₂ Request.Twin (requests.filter keep) (requests'.filter keep') := by
  induction h with
  | nil => exact .nil
  | cons hfirst _ ih =>
      rw [List.filter_cons, List.filter_cons, hkeep hfirst]
      split
      · exact .cons hfirst ih
      · exact ih

theorem ofKind (ht : t.Paired p t') (kind : EventKind) :
    List.Forall₂ Request.Twin (t.ofKind kind) (t'.ofKind kind) :=
  filter ht.requests fun hr => by rw [hr.kind]

theorem without (ht : t.Paired p t') {r r' : Request} (hr : r.Twin r') :
    List.Forall₂ Request.Twin (t.remove r.id).requests (t'.remove r'.id).requests :=
  filter ht.requests fun hother => by rw [hother.id, hr.id]

theorem find? (ht : t.Paired p t') (id : RequestId) :
    Option.Rel Request.Twin (t.find? id) (t'.find? id) := by
  obtain ⟨-, hrequests, -, -⟩ := ht
  rw [RequestTable.find?, RequestTable.find?]
  generalize t.requests = requests at hrequests
  generalize t'.requests = requests' at hrequests
  induction hrequests with
  | nil => exact .none
  | cons hfirst _ ih =>
      rw [List.find?_cons, List.find?_cons, hfirst.id]
      split
      · exact .some hfirst
      · exact ih

end RequestTable.Paired

namespace Registration

theorem lockstep_startPoint (hk : p.stands h k) :
    Lockstep (Agent.Paired p) Eq (startPoint h) (startPoint k) :=
  lockstep_bind_eq (lockstep_ask fun hv => hv.frameCount hk) fun _ =>
    lockstep_bind_eq (lockstep_ask fun hv => by
        rw [Vm.frameLocation, Vm.frameLocation, hv.threadOf hk]) fun _ =>
      lockstep_bind_eq (lockstep_see_same fun _ _ _ => rfl) fun _ => lockstep_pure rfl

theorem lockstep_filterOf (kind : EventKind) (modifier : EventModifier) :
    Lockstep (Agent.Paired p) Eq (filterOf kind modifier) (filterOf kind modifier) := by
  refine lockstep_bind_eq (lockstep_guard _ _) fun _ => ?_
  cases modifier with
  | count times => exact lockstep_bind_eq (lockstep_guard _ _) fun _ => lockstep_pure rfl
  | threadOnly thread => exact Tracking.lockstep_withThread thread fun _ => lockstep_pure rfl
  | classOnly refType => exact Tracking.lockstep_withRef refType _ fun _ => lockstep_pure rfl
  | classMatch | classExclude => exact lockstep_pure rfl
  | locationOnly location =>
      exact lockstep_bind_eq (lockstep_ofExcept _) fun _ =>
        Tracking.lockstep_withRef _ _ fun _ => lockstep_pure rfl
  | exceptionOnly refType caught uncaught =>
      exact lockstep_ite (lockstep_bind_eq (Tracking.lockstep_withRef _ _ fun _ =>
        lockstep_pure rfl) fun _ => lockstep_pure rfl) (lockstep_pure rfl)
  | fieldOnly => exact lockstep_refuse _
  | step thread size depth =>
      exact Tracking.lockstep_withThread thread fun hk =>
        lockstep_bind_eq (lockstep_startPoint hk) fun _ => lockstep_pure rfl
  | instanceOnly object => exact Tracking.lockstep_withRef object _ fun _ => lockstep_pure rfl

theorem lockstep_notifications :
    Lockstep (Agent.Paired p) (Table.Alike (Notification.Paired p))
      (Action.look fun a => a.requests.notifications :
        Command (Table NotificationKey Notification))
      (Action.look fun a => a.requests.notifications) :=
  lockstep_look fun hp => hp.requests.notifications

theorem lockstep_setNotifications {n n' : Table NotificationKey Notification}
    (hn : n.Alike (Notification.Paired p) n') :
    Lockstep (Agent.Paired p) Eq (setNotifications n) (setNotifications n') :=
  lockstep_change fun hp => hp.setRequests
    ⟨hp.requests.nextId, hp.requests.requests, hp.requests.breakpoints, hn⟩

theorem lockstep_holdThread (thread : Option ObjectId) :
    Lockstep (Agent.Paired p) (Option.Rel p.stands) (holdThread thread) (holdThread thread) := by
  cases thread with
  | none => exact lockstep_pure .none
  | some thread =>
      exact Tracking.lockstep_withThread thread fun hk =>
        lockstep_bind (lockstep_touch fun hv => hv.newGlobalRef hk) fun hglobal =>
          lockstep_bind_eq (lockstep_requireRef hglobal _) fun _ =>
            lockstep_pure (.some hglobal)

theorem lockstep_freeThread {thread thread' : Option Handle}
    (ht : Option.Rel p.stands thread thread') :
    Lockstep (Agent.Paired p) Eq (freeThread thread) (freeThread thread') := by
  cases ht with
  | none => exact lockstep_pure rfl
  | some hk => exact lockstep_adjust fun hv => hv.deleteRef hk .globalRef

theorem lockstep_enable (key : NotificationKey) :
    Lockstep (Agent.Paired p) Eq (enable key) (enable key) := by
  refine lockstep_bind lockstep_notifications fun {n n'} hn => ?_
  have hheld := hn.get? key
  generalize n.get? key = held at hheld
  generalize n'.get? key = held' at hheld
  cases hheld with
  | some hheld =>
      exact lockstep_setNotifications
        (hn.insert key ⟨congrArg (· + 1) hheld.count, hheld.thread⟩)
  | none =>
      refine lockstep_bind (lockstep_holdThread key.2) fun hthread => ?_
      refine lockstep_bind_eq
        (lockstep_tryCall_eq (Vm.lockstep_setNotification true key.1 hthread)) fun outcome => ?_
      cases outcome with
      | ok => exact lockstep_setNotifications (hn.insert key ⟨rfl, hthread⟩)
      | error cause =>
          exact lockstep_bind_eq (lockstep_freeThread hthread) fun _ => lockstep_refuse _

theorem lockstep_disable (key : NotificationKey) :
    Lockstep (Agent.Paired p) Eq (disable key) (disable key) := by
  refine lockstep_bind lockstep_notifications fun {n n'} hn => ?_
  have hheld := hn.get? key
  generalize n.get? key = held at hheld
  generalize n'.get? key = held' at hheld
  cases hheld with
  | none => exact lockstep_pure rfl
  | some hheld =>
      dsimp only
      rw [hheld.count]
      refine lockstep_ite (lockstep_setNotifications (hn.insert key ⟨rfl, hheld.thread⟩)) ?_
      refine lockstep_bind_eq (lockstep_setNotifications (hn.erase key)) fun _ => ?_
      refine lockstep_bind_eq
        (lockstep_tryCall_eq (Vm.lockstep_setNotification false key.1 hheld.thread)) fun _ => ?_
      exact lockstep_freeThread hheld.thread

theorem lockstep_breakpoints :
    Lockstep (Agent.Paired p) Eq
      (Action.look fun a => a.requests.breakpoints : Command (Table (MethodId × CodeIndex) Nat))
      (Action.look fun a => a.requests.breakpoints) :=
  lockstep_look fun hp => hp.requests.breakpoints.symm

theorem lockstep_setBreakpoints (breakpoints : Table (MethodId × CodeIndex) Nat) :
    Lockstep (Agent.Paired p) Eq (setBreakpoints breakpoints) (setBreakpoints breakpoints) :=
  lockstep_change fun hp => hp.setRequests
    ⟨hp.requests.nextId, hp.requests.requests, rfl, hp.requests.notifications⟩

theorem lockstep_holdBreakpoint (position : MethodId × CodeIndex) :
    Lockstep (Agent.Paired p) Eq (holdBreakpoint position) (holdBreakpoint position) := by
  refine lockstep_bind_eq lockstep_breakpoints fun breakpoints => ?_
  split
  · exact lockstep_setBreakpoints _
  · exact lockstep_bind_eq (lockstep_call (Vm.lockstep_setBreakpoint _ _)) fun _ =>
      lockstep_setBreakpoints _

theorem lockstep_releaseBreakpoint (position : MethodId × CodeIndex) :
    Lockstep (Agent.Paired p) Eq (releaseBreakpoint position) (releaseBreakpoint position) := by
  refine lockstep_bind_eq lockstep_breakpoints fun breakpoints => ?_
  split
  · exact lockstep_pure rfl
  · exact lockstep_collapse
  · exact lockstep_bind_eq (lockstep_setBreakpoints _) fun _ =>
      lockstep_bind_eq (lockstep_tryCall_eq (Vm.lockstep_clearBreakpoint _ _)) fun _ =>
        lockstep_pure rfl
  · exact lockstep_setBreakpoints _

theorem lockstep_acquire (registration : Registration) :
    Lockstep (Agent.Paired p) Eq (acquire registration) (acquire registration) := by
  obtain ⟨position, key⟩ := registration
  have henable := lockstep_attempt_eq (δ := ProtocolError) (lockstep_enable (p := p) key)
  cases position with
  | none =>
      refine lockstep_bind_eq henable fun outcome => ?_
      cases outcome with
      | ok => exact lockstep_pure rfl
      | error cause => exact lockstep_refuse cause
  | some position =>
      refine lockstep_bind_eq (lockstep_holdBreakpoint position) fun _ => ?_
      refine lockstep_bind_eq henable fun outcome => ?_
      cases outcome with
      | ok => exact lockstep_pure rfl
      | error cause =>
          exact lockstep_bind_eq (lockstep_releaseBreakpoint position) fun _ =>
            lockstep_refuse cause

theorem lockstep_release (registration : Registration) :
    Lockstep (Agent.Paired p) Eq (release registration) (release registration) := by
  obtain ⟨position, key⟩ := registration
  cases position with
  | none => exact lockstep_disable key
  | some position =>
      exact lockstep_bind_eq (lockstep_releaseBreakpoint position) fun _ => lockstep_disable key

/-- Requests with the same filters in some order get the same identifier. -/
theorem lockstep_add (kind : EventKind) (policy : SuspendPolicy) {filters filters' : List Filter}
    (hfilters : filters.Perm filters') (registration : Registration) :
    Lockstep (Agent.Paired p) Eq
      (do
        let id ← Action.look fun a => a.requests.nextId
        Action.change fun a =>
          { a with requests := a.requests.add kind policy filters registration }
        return id : Command RequestId)
      (do
        let id ← Action.look fun a => a.requests.nextId
        Action.change fun a =>
          { a with requests := a.requests.add kind policy filters' registration }
        return id) := by
  refine lockstep_bind_eq (lockstep_look fun hp => hp.requests.nextId.symm) fun id => ?_
  refine lockstep_bind_eq (lockstep_change fun {a b} hp => hp.setRequests ?_) fun _ =>
    lockstep_pure rfl
  have hnext := hp.requests.nextId
  refine ⟨congrArg (· + 1) hnext, ?_, hp.requests.breakpoints, hp.requests.notifications⟩
  exact List.rel_append hp.requests.requests (.cons ⟨hnext, rfl, rfl, hfilters, rfl⟩ .nil)

theorem lockstep_register (kind : EventKind) (policy : SuspendPolicy)
    (modifiers : List EventModifier) :
    Lockstep (Agent.Paired p) Eq (register kind policy modifiers)
      (register kind policy modifiers) :=
  lockstep_bind_eq (lockstep_guard _ _) fun _ =>
    lockstep_bind_eq (lockstep_mapM_same (lockstep_filterOf kind) modifiers) fun filters =>
      lockstep_bind_eq (lockstep_ofExcept _) fun registration =>
        lockstep_bind_eq (lockstep_acquire registration) fun _ =>
          lockstep_add kind policy (.refl filters) registration

theorem lockstep_requests :
    Lockstep (Agent.Paired p) (RequestTable.Paired p)
      (Action.look Agent.requests : Command RequestTable) (Action.look Agent.requests) :=
  lockstep_look fun hp => hp.requests

theorem lockstep_remove {r r' : Request} (hr : r.Twin r') :
    Lockstep (Agent.Paired p) Eq (remove r) (remove r') := by
  refine lockstep_bind_eq (lockstep_change fun {a b} hp => hp.setRequests ?_) fun _ => ?_
  · exact ⟨hp.requests.nextId, hp.requests.without hr, hp.requests.breakpoints,
      hp.requests.notifications⟩
  · rw [hr.registration]
    exact lockstep_release _

theorem lockstep_clear (kind : EventKind) (id : RequestId) :
    Lockstep (Agent.Paired p) Eq (clear kind id) (clear kind id) := by
  refine lockstep_bind lockstep_requests fun {t t'} ht => ?_
  have hfound := ht.find? id
  generalize t.find? id = found at hfound
  generalize t'.find? id = found' at hfound
  cases hfound with
  | none => exact lockstep_refuse _
  | some hr =>
      dsimp only
      rw [hr.kind]
      exact lockstep_bind_eq (lockstep_guard _ _) fun _ => lockstep_remove hr

theorem lockstep_clearBreakpoints :
    Lockstep (Agent.Paired p) Eq clearBreakpoints clearBreakpoints :=
  lockstep_bind lockstep_requests fun ht =>
    lockstep_forM (fun hr => lockstep_remove hr) (ht.ofKind .breakpoint)

end Registration

end DebugAgent
