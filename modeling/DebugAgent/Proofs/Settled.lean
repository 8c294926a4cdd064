import DebugAgent.Proofs.Footing
import DebugAgent.Proofs.Lasting
import DebugAgent.Proofs.Stepping
import Mathlib.Data.List.Forall2

/-!
# Told for good

When the client has been told a value, the objects in it are recognised by their identifiers.  From
then on the value is settled: nothing but giving identifiers back can make the agent tell it in
another way.  So a list of values that has been read once is read again entry by entry, however much
of it is asked for at a time.
-/

namespace DebugAgent

open DebugAgent.Action Command Tracking Reading
open Relation (ReflTransGen)

/-! ### Agents in shape -/

/-- The books are in order, and nothing is named that is not there. -/
structure Agent.InShape (a : Agent) : Prop extends InOrder a, Agent.Intact a

namespace Agent.InShape

variable {α : Type} {a : Agent} {object : HeapId} {id : ObjectId}

theorem looks (h : a.InShape) {x : Command α} (hx : Looks Control.Any x) :
    (x.perform a).2.InShape where
  toInOrder := h.toInOrder.unfolds (hx.evolves h.toOrderly).unfolds
  toIntact := (hx.safe a h.toIntact).after

theorem setVm (h : a.InShape) {vm : Vm} (hb : vm.RefsBounded) (hc : vm.Closed) :
    (a.setVm vm).InShape where
  toInOrder := h.toInOrder.setVm hb
  toIntact := h.toIntact.setVm hc

theorem opened (h : a.InShape) (hlive : object < a.vm.heap.size) : (a.opened object).InShape :=
  h.setVm ((Vm.ages_newRef a.vm .localRef object).bounded h.refs) (h.closed.newRef .localRef hlive)

theorem giveOut (h : a.InShape) {stored : Stored} (hstored : a.vm.Has stored.objects) :
    (a.setVm (a.vm.giveOut stored).2).InShape := by
  have hopened : Vm.Opened false a.vm (a.vm.giveOut stored).1.owned (a.vm.giveOut stored).2 :=
    Vm.opened_giveOut h.refs stored
  exact h.setVm (hopened.ages.bounded h.refs) (h.closed.giveOut hstored)

theorem live_of_target? (h : a.InShape) (hlive : a.tracker.target? a.vm id = some object) :
    object < a.vm.heap.size := by
  obtain ⟨global, -, htarget⟩ := Option.bind_eq_some_iff.mp hlive
  exact h.closed.target? htarget

end Agent.InShape

theorem Agent.Reachable.inShape {a : Agent} (h : a.Reachable) : a.InShape :=
  { toInOrder := h.inOrder, toIntact := h.intact }

/-! ### What lasts as long as the world -/

section Lasts

variable {α : Type} {a : Agent}

/-- What is so stays so as long as the debugged world stays as it is and nobody is forgotten. -/
def Agent.Lasts (P : Agent → Prop) : Prop :=
  ∀ ⦃a b : Agent⦄, Recalls a b → a.vm.KeepsWorld b.vm → P a → P b

theorem keepsWorld_of_glances {vm : Vm} (h : ReflTransGen Vm.Glance a.vm vm) :
    a.vm.KeepsWorld vm := by
  induction h with
  | refl => exact .refl a.vm
  | @tail near _ _ hlast ih =>
      have hglance : Inspection Control.Any (a.setVm near) _ := .glance (a := a.setVm near) hlast
      exact ih.trans hglance.keepsWorld

namespace Agent.Lasts

variable {P : Agent → Prop} (hP : Agent.Lasts P) (hshape : a.InShape) (ha : P a)
include hP hshape ha

theorem looks {x : Command α} (hx : Looks Control.Any x) : P (x.perform a).2 :=
  hP (.looks hshape.toInOrder hx) (hx.keepsWorld.perform a) ha

theorem glances {vm : Vm} (h : ReflTransGen Vm.Glance a.vm vm) : P (a.setVm vm) :=
  hP (.glances hshape.toInOrder h) (keepsWorld_of_glances h) ha

end Agent.Lasts

end Lasts

/-! ### Settled values -/

/-- The client would be told what is stored by this value, and the object in it is recognised. -/
structure Agent.Settles (a : Agent) (tag : TypeTag) (stored : Stored) (value : Value) : Prop where
  told : a.told tag stored = .ok value
  recognised : ∀ object ∈ stored.objects, a.Recognises object (a.idFor object)

section Settles

variable {α : Type} {a b near : Agent} {h : Handle} {object : HeapId} {tag : TypeTag}
  {stored : Stored} {value : Value} {raw : RawValue} {read : Command RawValue}

theorem identified_eq_ok {tagged : TaggedObjectId} : a.identified object = .ok tagged ↔
    ∃ body, a.vm.runtimeClass? object = some body ∧ a.vm.grants Capabilities.canTagObjects ∧
      tagged = ⟨.ofClass body.signature, a.idFor object⟩ := by
  rw [Agent.identified]
  cases a.vm.runtimeClass? object with
  | none => simp
  | some body =>
      by_cases hgrant : a.vm.grants Capabilities.canTagObjects
      · simp [hgrant, eq_comm]
      · simp [hgrant]

/-- An object is told by its identifier, with the tag of its class. -/
theorem told_object_eq_ok : a.told tag (.reference (some object)) = .ok value ↔
    ∃ body, a.vm.runtimeClass? object = some body ∧ a.vm.grants Capabilities.canTagObjects ∧
      value = .ofObject ⟨.ofClass body.signature, a.idFor object⟩ := by
  rw [Agent.told]
  constructor
  · intro htold
    cases hidentified : a.identified object with
    | error cause =>
        rw [hidentified] at htold
        cases htold
    | ok tagged =>
        rw [hidentified] at htold
        obtain ⟨body, hbody, hgrant, rfl⟩ := identified_eq_ok.mp hidentified
        exact ⟨body, hbody, hgrant, (Except.ok.inj htold).symm⟩
  · rintro ⟨body, hbody, hgrant, rfl⟩
    rw [identified_eq_ok.mpr ⟨body, hbody, hgrant, rfl⟩]
    rfl

theorem eq_error_of_mapError {ε α : Type} {r : Except ε α} {cause : ε}
    (h : r.mapError Stop.refused = .error (.refused cause)) : r = .error cause := by
  cases r with
  | error found =>
      cases h
      rfl
  | ok value => cases h

/-- The cause says that a run does not lie in what it is a run of. -/
def ProtocolError.isBound : ProtocolError → Bool
  | .invalidIndex | .invalidLength => true
  | _ => false

theorem told_eq_error_iff {α β : Type} {f : α → β} {r : Except (Stop ProtocolError) α}
    {cause : ProtocolError} (hcause : cause ≠ .internal) :
    (r.map f).mapError Stop.told = .error cause ↔ r = .error (.refused cause) := by
  rcases r with (found | _) | value
  · simp [Except.map, Stop.told]
  · simp [Except.map, Stop.told, hcause.symm]
  · simp [Except.map]

theorem told_eq_ok_iff {α β : Type} {f : α → β} (hf : Function.Injective f)
    {r : Except (Stop ProtocolError) α} {value : α} :
    (r.map f).mapError Stop.told = .ok (f value) ↔ r = .ok value := by
  cases r with
  | error stop => simp [Except.map]
  | ok found => simp [Except.map, hf.eq_iff]

/-- Values are never refused for their place. -/
theorem told_error {cause : ProtocolError} (h : a.told tag stored = .error cause) :
    cause.isBound = false := by
  rcases stored with v | _ | object
  · rw [Agent.told, primitiveValue] at h
    cases v <;> cases tag <;> cases h <;> rfl
  · cases h
  · rw [Agent.told, Agent.identified] at h
    split at h
    · cases h
      rfl
    · split at h
      · cases h
      · cases h
        rfl

/-- What the client would have been told is settled once the objects are recognised by what they
would have been called. -/
theorem settles_of_told (htold : a.told tag stored = .ok value) (hendures : a.vm.Endures b.vm)
    (hrecognised : ∀ object ∈ stored.objects, b.Recognises object (a.idFor object)) :
    b.Settles tag stored value := by
  rcases stored with v | _ | object
  · exact ⟨htold, fun _ hmem => by cases hmem⟩
  · exact ⟨htold, fun _ hmem => by cases hmem⟩
  · have hknown : b.Recognises object (a.idFor object) := hrecognised object List.mem_cons_self
    have hsame : b.idFor object = a.idFor object := hknown.idFor
    obtain ⟨body, hbody, hgrant, rfl⟩ := told_object_eq_ok.mp htold
    obtain ⟨later, hlater, hsignature⟩ := hendures.runtimeClass? hbody
    refine ⟨told_object_eq_ok.mpr ⟨later, hlater, ?_, ?_⟩, fun other hmem => ?_⟩
    · exact (Vm.grants_congr hendures.capabilities _).trans hgrant
    · rw [hsignature, hsame]
    · cases List.mem_singleton.mp hmem
      rwa [hsame]

theorem Agent.Settles.recalls (h : a.Settles tag stored value) (hrecalls : Recalls a b) :
    b.Settles tag stored value :=
  settles_of_told h.told hrecalls.endures fun object hmem =>
    hrecalls.recognises (h.recognised object hmem)

/-! ### Values given out -/

/-- What a value that has been given out stands for, if its reference is valid. -/
def Vm.behind? (vm : Vm) : RawValue → Option Stored
  | .primitive v => some (.primitive v)
  | .object h =>
      if h.isNull then some (.reference none)
      else (vm.target? h).map fun object => .reference (some object)

theorem Vm.behind?_giveOut (vm : Vm) (stored : Stored) :
    (vm.giveOut stored).2.behind? (vm.giveOut stored).1 = some stored := by
  rcases stored with v | _ | object
  · rfl
  · rfl
  · have hnew : (vm.newLocal object).1.isNull = false := isNull_newRef vm .localRef object
    have htarget : (vm.newLocal object).2.target? (vm.newLocal object).1 = some object :=
      target?_newRef vm .localRef object
    simp [giveOut, behind?, hnew, htarget]

theorem trackObject_null (hnull : h.isNull = true) (declared : TypeTag) :
    (trackObject h declared).perform a =
      (.ok ⟨if declared = .array then .array else .object, 0⟩, a) := by
  simp [trackObject, hnull]

/-- An object that has been told is recognised from then on. -/
theorem trackObject_recognises (hshape : a.InShape) (htarget : a.vm.target? h = some object)
    (declared : TypeTag) {tagged : TaggedObjectId} (hidentified : a.identified object = .ok tagged) :
    ((trackObject h declared).perform a).2.Recognises object (a.idFor object) := by
  obtain ⟨cls, hperform⟩ := perform_trackObject hshape.closed hshape.refs htarget declared
  have hopened : IdsBounded (a.opened cls) := hshape.ids.of_tracker_eq rfl
  have hknown := recognises_handingOut hopened (hshape.closed.target? htarget)
  rw [hperform, hidentified]
  exact hknown.setVm (Vm.keeps_dropLocals [(a.vm.newLocal cls).1] _)

/-- A value is told as what it stands for. -/
theorem perform_wrap_behind (hshape : a.InShape) (hbehind : a.vm.behind? raw = some stored)
    (tag : TypeTag) :
    ((wrap tag raw).perform a).1 = (a.told tag stored).mapError .refused := by
  cases raw with
  | primitive v =>
      cases hbehind
      rfl
  | object h =>
      rw [wrap, perform_withLocal, perform_bind]
      cases hnull : h.isNull with
      | true =>
          simp only [Vm.behind?, hnull, if_true] at hbehind
          cases hbehind
          rw [trackObject_null hnull]
          rfl
      | false =>
          simp only [Vm.behind?, hnull, Bool.false_eq_true, if_false] at hbehind
          obtain ⟨object, htarget, rfl⟩ := Option.map_eq_some_iff.mp hbehind
          obtain ⟨cls, hperform⟩ := perform_trackObject hshape.closed hshape.refs htarget tag
          rw [hperform, Agent.told]
          cases a.identified object <;> rfl

theorem recalls_opened (ho : InOrder a) (object : HeapId) : Recalls a (a.opened object) :=
  .glances ho (.single (.openRef object))

theorem recalls_dropLocals (ho : InOrder a) (hs : List Handle) :
    Recalls a (a.setVm (hs.foldl dropLocal a.vm)) :=
  .glances ho (Vm.glance_dropLocals hs a.vm)

/-- Telling what a reference stands for makes the object recognised. -/
theorem trackObject_recognises_behind (hshape : a.InShape)
    (hbehind : a.vm.behind? (.object h) = some (.reference (some object)))
    (htold : a.told tag (.reference (some object)) = .ok value) :
    ((trackObject h tag).perform a).2.Recognises object (a.idFor object) := by
  obtain ⟨body, hbody, hgrant, -⟩ := told_object_eq_ok.mp htold
  rw [Vm.behind?] at hbehind
  split at hbehind
  · cases hbehind
  · obtain ⟨found, htarget, heq⟩ := Option.map_eq_some_iff.mp hbehind
    cases heq
    exact trackObject_recognises hshape htarget tag (identified_eq_ok.mpr ⟨body, hbody, hgrant, rfl⟩)

/-- A value that has been told is settled. -/
theorem wrap_settles (hshape : a.InShape) (hbehind : a.vm.behind? raw = some stored)
    (hwrap : (wrap tag raw).perform a = (.ok value, b)) : b.Settles tag stored value := by
  have htold : a.told tag stored = .ok value := by
    have hresult := perform_wrap_behind hshape hbehind tag
    rw [hwrap] at hresult
    exact eq_ok_of_mapError hresult.symm
  cases raw with
  | primitive v =>
      have hsame : a = b := congrArg Prod.snd hwrap
      subst hsame
      cases hbehind
      exact ⟨htold, fun _ hmem => by cases hmem⟩
  | object h =>
      let near := ((trackObject h tag).perform a).2
      have hb : b = near.setVm ([h].foldl dropLocal near.vm) := by
        have hafter := congrArg Prod.snd hwrap
        rw [wrap, perform_withLocal, bind_pure_comp, perform_map] at hafter
        exact hafter.symm
      have hlooks := @looks_trackObject Control.Any h tag
      have htracked : Recalls a near := .looks hshape.toInOrder hlooks
      have hdropped := recalls_dropLocals (hshape.looks hlooks).toInOrder [h]
      rw [hb]
      refine settles_of_told htold (htracked.trans hdropped).endures fun object hmem => ?_
      rcases stored with _ | _ | target
      · cases hmem
      · cases hmem
      · cases List.mem_singleton.mp hmem
        exact hdropped.recognises (trackObject_recognises_behind hshape hbehind htold)

/-- Reading a value and telling it settles it. -/
theorem reading_settles (hread : read.perform a = (.ok raw, near)) (hnear : near.InShape)
    (hbehind : near.vm.behind? raw = some stored)
    (htold : (read >>= wrap tag).perform a = (.ok value, b)) : b.Settles tag stored value := by
  rw [perform_bind_of_ok hread] at htold
  exact wrap_settles hnear hbehind htold

/-- A settled value that is read is told as before. -/
theorem reading_again (hread : read.perform a = (.ok raw, near)) (hnear : near.InShape)
    (hbehind : near.vm.behind? raw = some stored) (hrecalls : Recalls a near)
    (hsettled : a.Settles tag stored value) : ((read >>= wrap tag).perform a).1 = .ok value := by
  rw [perform_bind_of_ok hread, perform_wrap_behind hnear hbehind, (hsettled.recalls hrecalls).told]
  rfl

end Settles

/-! ### Lists -/

section Lists

variable {ι α : Type} {a b : Agent} {P : Agent → Prop} {S : ι → Agent → α → Prop} {f : ι → Command α}
  {is : List ι} {rs : List α}

theorem mapM_eq_ok_iff {ε : Type} {f : ι → Except ε α} :
    is.mapM f = .ok rs ↔ List.Forall₂ (fun i r => f i = .ok r) is rs := by
  induction is generalizing rs with
  | nil =>
      rw [List.forall₂_nil_left_iff]
      exact ⟨fun h => (Except.ok.inj h).symm, fun h => h ▸ rfl⟩
  | cons i is ih =>
      rw [List.mapM_cons, List.forall₂_cons_left_iff]
      cases f i with
      | error cause => simp [bind, Except.bind]
      | ok r =>
          simp only [← ih, bind, Except.bind]
          cases is.mapM f <;> simp [pure, Except.pure, eq_comm]

/-- Looking at the machine makes no difference to it. -/
def Agent.Stays (P : Agent → Prop) : Prop :=
  ∀ {β : Type} {x : Command β} {a : Agent}, Looks Control.Any x → a.InShape → P a →
    P (x.perform a).2

theorem stays_settles (tag : TypeTag) (stored : Stored) (value : Value) :
    Agent.Stays fun a => a.Settles tag stored value :=
  fun hx hshape h => h.recalls (.looks hshape.toInOrder hx)

/-- What each result establishes is established by all of them together, and still there in the
end. -/
theorem mapM_settles (hlooks : ∀ i, Looks Control.Any (f i)) (hP : Agent.Stays P)
    (hS : ∀ i r, Agent.Stays fun b => S i b r)
    (hf : ∀ i ∈ is, ∀ a r b, a.InShape → P a → (f i).perform a = (.ok r, b) → S i b r)
    (hshape : a.InShape) (ha : P a) (hperform : (is.mapM f).perform a = (.ok rs, b)) :
    List.Forall₂ (fun i r => S i b r) is rs := by
  induction is generalizing a rs with
  | nil =>
      cases hperform
      exact .nil
  | cons i is ih =>
      obtain ⟨hfirst, hrest⟩ := List.forall_mem_cons.mp hf
      rw [List.mapM_cons] at hperform
      obtain ⟨r, near, hone, hothers⟩ := perform_bind_ok hperform
      obtain ⟨others, last, hothers, hlast⟩ := perform_bind_ok hothers
      cases hlast
      have hshape' := hshape.looks (hlooks i)
      have ha' := hP (hlooks i) hshape ha
      rw [hone] at hshape' ha'
      have hkept := hS i r (looks_mapM hlooks is) hshape' (hfirst a r near hshape ha hone)
      rw [hothers] at hkept
      exact .cons hkept (ih hrest hshape' ha' hothers)

/-- Where each result is established already, they all are got. -/
theorem mapM_again (hlooks : ∀ i, Looks Control.Any (f i)) (hP : Agent.Stays P)
    (hS : ∀ i r, Agent.Stays fun b => S i b r)
    (hf : ∀ i ∈ is, ∀ a r, a.InShape → P a → S i a r → ((f i).perform a).1 = .ok r)
    (hshape : a.InShape) (ha : P a) (hsettled : List.Forall₂ (fun i r => S i a r) is rs) :
    ((is.mapM f).perform a).1 = .ok rs := by
  induction is generalizing a rs with
  | nil =>
      cases hsettled
      rfl
  | cons i is ih =>
      obtain ⟨hitem, hitems⟩ := List.forall_mem_cons.mp hf
      obtain ⟨r, others, hfirst, hrest, rfl⟩ := List.forall₂_cons_left_iff.mp hsettled
      have hone := hitem a r hshape ha hfirst
      cases hperform : (f i).perform a with
      | mk outcome near =>
          rw [hperform] at hone
          cases hone
          have hshape' := hshape.looks (hlooks i)
          have ha' := hP (hlooks i) hshape ha
          have hkept : List.Forall₂ (fun j r => S j ((f i).perform a).2 r) is others :=
            hrest.imp fun j r hr => hS j r (hlooks i) hshape hr
          rw [hperform] at hshape' ha' hkept
          have hothers := ih hitems hshape' ha' hkept
          rw [List.mapM_cons, perform_bind_of_ok hperform, perform_bind]
          cases hrests : (is.mapM f).perform near with
          | mk outcomes last =>
              rw [hrests] at hothers
              cases hothers
              rfl

/-- What refuses all of them is what refuses one. -/
theorem mapM_refused {Q : ProtocolError → Prop} (hlooks : ∀ i, Looks Control.Any (f i))
    (hP : Agent.Stays P)
    (hf : ∀ i ∈ is, ∀ a cause, a.InShape → P a →
      ((f i).perform a).1 = .error (.refused cause) → Q cause)
    (hshape : a.InShape) (ha : P a) {cause : ProtocolError}
    (hperform : ((is.mapM f).perform a).1 = .error (.refused cause)) : Q cause := by
  obtain ⟨n, hn, rs, near, hbefore, hfails⟩ := perform_mapM_error (Prod.ext hperform rfl)
  have hlooksBefore := looks_mapM hlooks (is.take n)
  have hshape' := hshape.looks hlooksBefore
  have ha' := hP hlooksBefore hshape ha
  rw [hbefore] at hshape' ha'
  exact hf _ (List.getElem_mem hn) near cause hshape' ha' (congrArg Prod.fst hfails)

end Lists

end DebugAgent
