import DebugAgent.Proofs.Touch
import Mathlib.Data.List.Nodup

/-!
# References stay good

The number of a reference is never used again, and the agent alone gives up its global references.
So a global reference that the agent holds refers to the same object until the agent deletes it,
whatever else happens to the machine.
-/

namespace DebugAgent

open Relation (ReflTransGen)

namespace Callback

variable {ρ σ : Type}

theorem thread?_withObjects (thread other : σ) (c : Callback ρ) :
    (c.withObjects thread other).thread? = c.thread?.map fun _ => thread := by
  cases c <;> rfl

theorem other?_withObjects (thread other : σ) (c : Callback ρ) :
    (c.withObjects thread other).other? = c.other?.map fun _ => other := by
  cases c <;> rfl

end Callback

namespace Vm

variable {vm vm' vm'' : Vm} {h : Handle} {object : HeapId}

theorem isNull_eq_false_of_target (ht : vm.target? h = some object) : h.isNull = false := by
  rw [target?] at ht
  cases hn : h.isNull with
  | false => rfl
  | true => simp [hn] at ht

theorem newGlobalRef_of_target (ht : vm.target? h = some object) :
    vm.newGlobalRef h = vm.newRef .globalRef object := by
  simp [newGlobalRef, ht]

@[simp] theorem isNull_newRef (vm : Vm) (kind : RefKind) (object : HeapId) :
    (vm.newRef kind object).1.isNull = false := by
  simp [newRef, Handle.isNull]

/-- A valid global reference to an object. -/
structure HoldsGlobal (vm : Vm) (h : Handle) (object : HeapId) : Prop where
  isNull : h.isNull = false
  get? : vm.refs.get? h.raw = some ⟨object, .globalRef⟩

theorem HoldsGlobal.target? (hg : vm.HoldsGlobal h object) : vm.target? h = some object := by
  simp [Vm.target?, hg.isNull, hg.get?]

/-- A reference refers to one object only. -/
theorem HoldsGlobal.unique {object' : HeapId} (hg : vm.HoldsGlobal h object)
    (hg' : vm.HoldsGlobal h object') : object = object' := by
  have heq := hg.get?.symm.trans hg'.get?
  simpa using heq

/-- No reference is newer than the newest one. -/
def RefsBounded (vm : Vm) : Prop := ∀ raw ref, vm.refs.get? raw = some ref → raw ≤ vm.lastRef

/-- The number of the next reference is not in use. -/
theorem RefsBounded.get?_next (hb : vm.RefsBounded) : vm.refs.get? (vm.lastRef + 8) = none := by
  refine Option.eq_none_iff_forall_ne_some.mpr fun ref href => ?_
  have hle := hb _ ref href
  omega

/-- No valid reference is null. -/
def RefsPositive (vm : Vm) : Prop := ∀ raw ref, vm.refs.get? raw = some ref → 0 < raw

/-- Valid references are old ones or new ones, and no number is used twice. -/
structure Ages (vm vm' : Vm) : Prop where
  lastRef_le : vm.lastRef ≤ vm'.lastRef
  old_or_new : ∀ {raw ref}, vm'.refs.get? raw = some ref →
    vm.refs.get? raw = some ref ∨ vm.lastRef < raw ∧ raw ≤ vm'.lastRef

namespace Ages

theorem of_refs_eq (hrefs : vm'.refs = vm.refs) (hlast : vm'.lastRef = vm.lastRef) :
    vm.Ages vm' where
  lastRef_le := Nat.le_of_eq hlast.symm
  old_or_new := fun href => .inl (hrefs ▸ href)

theorem refl (vm : Vm) : vm.Ages vm := of_refs_eq rfl rfl

theorem trans (ha : vm.Ages vm') (ha' : vm'.Ages vm'') : vm.Ages vm'' where
  lastRef_le := Nat.le_trans ha.lastRef_le ha'.lastRef_le
  old_or_new := by
    intro raw ref href
    have hle := ha.lastRef_le
    have hle' := ha'.lastRef_le
    rcases ha'.old_or_new href with hold | hnew
    · rcases ha.old_or_new hold with hold | hnew
      · exact .inl hold
      · exact .inr (by omega)
    · exact .inr (by omega)

theorem bounded (ha : vm.Ages vm') (hb : vm.RefsBounded) : vm'.RefsBounded := by
  intro raw ref href
  rcases ha.old_or_new href with hold | hnew
  · exact Nat.le_trans (hb raw ref hold) ha.lastRef_le
  · exact hnew.2

theorem positive (ha : vm.Ages vm') (hpos : vm.RefsPositive) : vm'.RefsPositive := by
  intro raw ref href
  rcases ha.old_or_new href with hold | hnew
  · exact hpos raw ref hold
  · exact Nat.zero_lt_of_lt hnew.1

end Ages

/-! ### Making and deleting references -/

theorem get?_newRef (vm : Vm) (kind : RefKind) (object : HeapId) (raw : Nat) :
    (vm.newRef kind object).2.refs.get? raw =
      if raw = vm.lastRef + 8 then some ⟨object, kind⟩ else vm.refs.get? raw :=
  Table.get?_insert vm.refs _ _ raw

@[simp] theorem target?_newRef (vm : Vm) (kind : RefKind) (object : HeapId) :
    (vm.newRef kind object).2.target? (vm.newRef kind object).1 = some object := by
  rw [target?, isNull_newRef]
  simp [newRef]

theorem ages_newRef (vm : Vm) (kind : RefKind) (object : HeapId) :
    vm.Ages (vm.newRef kind object).2 where
  lastRef_le := Nat.le_add_right vm.lastRef 8
  old_or_new := by
    intro raw ref href
    rw [get?_newRef] at href
    split at href
    · exact .inr ⟨by omega, by simp [newRef, *]⟩
    · exact .inl href

theorem holdsGlobal_newRef (vm : Vm) (object : HeapId) :
    (vm.newRef .globalRef object).2.HoldsGlobal (vm.newRef .globalRef object).1 object where
  isNull := isNull_newRef vm .globalRef object
  get? := by simp [newRef]

/-- A new reference does not take the number of one that is valid. -/
theorem get?_newRef_of_some (hb : vm.RefsBounded) {raw : Nat} {ref : Ref}
    (href : vm.refs.get? raw = some ref) (kind : RefKind) :
    (vm.newRef kind object).2.refs.get? raw = some ref := by
  have hle := hb raw ref href
  rw [get?_newRef, if_neg (by omega), href]

theorem ages_newLocals (ids : List HeapId) (vm : Vm) : vm.Ages (newLocals ids vm).2 := by
  induction ids generalizing vm with
  | nil => exact .refl vm
  | cons id ids ih => exact (ages_newRef vm .localRef id).trans (ih _)

theorem target?_newRef_of_some (hb : vm.RefsBounded) (ht : vm.target? h = some object)
    (kind : RefKind) (other : HeapId) : (vm.newRef kind other).2.target? h = some object := by
  have hvalid := isNull_eq_false_of_target ht
  rw [target?, hvalid] at ht ⊢
  obtain ⟨ref, href, hobject⟩ := Option.map_eq_some_iff.mp ht
  exact Option.map_eq_some_iff.mpr ⟨ref, get?_newRef_of_some hb href kind, hobject⟩

/-- References that are opened leave those that are there. -/
theorem target?_newLocals_of_some (hb : vm.RefsBounded) (ht : vm.target? h = some object)
    (ids : List HeapId) : (newLocals ids vm).2.target? h = some object := by
  induction ids generalizing vm with
  | nil => exact ht
  | cons id ids ih =>
      exact ih ((ages_newRef vm .localRef id).bounded hb)
        (target?_newRef_of_some hb ht .localRef id)

/-- References that are taken to objects are references to these objects. -/
theorem target?_newLocals (hb : vm.RefsBounded) (ids : List HeapId) :
    (∀ id ∈ ids, ∃ h ∈ (newLocals ids vm).1, (newLocals ids vm).2.target? h = some id) ∧
      ∀ h ∈ (newLocals ids vm).1, ∃ id ∈ ids, (newLocals ids vm).2.target? h = some id := by
  induction ids generalizing vm with
  | nil => simp [newLocals]
  | cons first ids ih =>
      have hbounded : (vm.newLocal first).2.RefsBounded :=
        (ages_newRef vm .localRef first).bounded hb
      obtain ⟨hforth, hback⟩ := ih hbounded
      have hfirst : (newLocals (first :: ids) vm).2.target? (vm.newLocal first).1 = some first :=
        target?_newLocals_of_some hbounded (target?_newRef vm .localRef first) ids
      constructor
      · refine List.forall_mem_cons.mpr ⟨⟨_, List.mem_cons_self, hfirst⟩, fun id hmem => ?_⟩
        obtain ⟨h, hmem, htarget⟩ := hforth id hmem
        exact ⟨h, List.mem_cons_of_mem _ hmem, htarget⟩
      · refine List.forall_mem_cons.mpr ⟨⟨_, List.mem_cons_self, hfirst⟩, fun h hmem => ?_⟩
        obtain ⟨id, hmem, htarget⟩ := hback h hmem
        exact ⟨id, List.mem_cons_of_mem _ hmem, htarget⟩

/-- A valid reference after a deletion was valid before. -/
theorem get?_deleteRef {kind : RefKind} {raw : Nat} {ref : Ref}
    (href : (vm.deleteRef kind h).refs.get? raw = some ref) : vm.refs.get? raw = some ref := by
  rw [deleteRef] at href
  split at href
  · split at href
    · exact (Table.get?_erase_eq_some.mp href).2
    · exact href
  · exact href

/-- Deleting a reference of one kind leaves the other references alone. -/
theorem get?_deleteRef_of_ne {kind : RefKind} {raw : Nat} {ref : Ref}
    (href : vm.refs.get? raw = some ref) (hne : ref.kind ≠ kind ∨ raw ≠ h.raw) :
    (vm.deleteRef kind h).refs.get? raw = some ref := by
  rw [deleteRef]
  split
  · rename_i found hfound
    split
    · rename_i hkind
      have hraw : raw ≠ h.raw := by
        rintro rfl
        rw [href] at hfound
        cases hfound
        exact hne.elim (fun hne => hne hkind) fun hne => hne rfl
      exact (Table.get?_erase_of_ne hraw).trans href
    · exact href
  · exact href

/-- A reference that was deleted is not valid any longer. -/
theorem get?_deleteRef_self (vm : Vm) (kind : RefKind) (h : Handle) (object : HeapId) :
    (vm.deleteRef kind h).refs.get? h.raw ≠ some ⟨object, kind⟩ := by
  intro href
  have hbefore := get?_deleteRef href
  simp [deleteRef, hbefore] at href

/-- The global references that are left after one has been deleted. -/
theorem global_deleteGlobalRef (vm : Vm) (h : Handle) (raw : Nat) (object : HeapId) :
    (vm.deleteGlobalRef h).refs.get? raw = some ⟨object, .globalRef⟩ ↔
      vm.refs.get? raw = some ⟨object, .globalRef⟩ ∧ raw ≠ h.raw := by
  constructor
  · intro href
    refine ⟨get?_deleteRef href, ?_⟩
    rintro rfl
    exact get?_deleteRef_self vm .globalRef h object href
  · rintro ⟨href, hne⟩
    exact get?_deleteRef_of_ne href (.inr hne)

/-- Deleting a reference changes nothing but the references. -/
theorem deleteRef_eq (vm : Vm) (kind : RefKind) (h : Handle) :
    ∃ refs, vm.deleteRef kind h = { vm with refs } := by
  rw [deleteRef]
  split
  · split
    · exact ⟨_, rfl⟩
    · exact ⟨vm.refs, rfl⟩
  · exact ⟨vm.refs, rfl⟩

theorem Glance.leaves (h : vm.Glance vm') :
    vm'.heap = vm.heap ∧ vm'.capabilities = vm.capabilities ∧ vm'.attached = vm.attached := by
  cases h with
  | closeRef h =>
      obtain ⟨refs, heq⟩ := deleteRef_eq vm .localRef h
      rw [deleteLocalRef, heq]
      exact ⟨rfl, rfl, rfl⟩
  | openRef | raise | clearException | countFieldRead => exact ⟨rfl, rfl, rfl⟩

theorem leaves_of_glances (h : ReflTransGen Glance vm vm') :
    vm'.heap = vm.heap ∧ vm'.capabilities = vm.capabilities ∧ vm'.attached = vm.attached := by
  induction h with
  | refl => exact ⟨rfl, rfl, rfl⟩
  | tail _ hlast ih =>
      obtain ⟨hheap, hcapabilities, hattached⟩ := hlast.leaves
      exact ⟨hheap.trans ih.1, hcapabilities.trans ih.2.1, hattached.trans ih.2.2⟩

theorem steady_deleteRef (vm : Vm) (kind : RefKind) (h : Handle) :
    vm.Steady (vm.deleteRef kind h) := by
  obtain ⟨refs, heq⟩ := deleteRef_eq vm kind h
  rw [heq]
  exact ⟨rfl, rfl, rfl, id, .inr, id, id⟩

theorem ages_deleteRef (vm : Vm) (kind : RefKind) (h : Handle) :
    vm.Ages (vm.deleteRef kind h) where
  lastRef_le := by
    obtain ⟨refs, heq⟩ := deleteRef_eq vm kind h
    exact Nat.le_of_eq (congrArg lastRef heq).symm
  old_or_new := fun href => .inl (get?_deleteRef href)

/-! ### What the agent relies on -/

/-- A change of the machine that takes nothing away that the agent relies on. -/
structure Keeps (vm vm' : Vm) : Prop extends vm.Steady vm', vm.Ages vm' where
  globals : ∀ {h object}, vm.HoldsGlobal h object → vm'.HoldsGlobal h object

theorem Keeps.refl (vm : Vm) : vm.Keeps vm := ⟨.refl vm, .refl vm, id⟩

theorem Keeps.trans (hk : vm.Keeps vm') (hk' : vm'.Keeps vm'') : vm.Keeps vm'' where
  toSteady := hk.toSteady.trans hk'.toSteady
  toAges := hk.toAges.trans hk'.toAges
  globals := fun hg => hk'.globals (hk.globals hg)

theorem Frame.keeps (hf : vm.Frame vm') : vm.Keeps vm' where
  toSteady := hf.toSteady
  toAges := .of_refs_eq hf.refs hf.lastRef
  globals := fun hg => ⟨hg.isNull, hf.refs ▸ hg.get?⟩

theorem keeps_newRef (hb : vm.RefsBounded) (kind : RefKind) (object : HeapId) :
    vm.Keeps (vm.newRef kind object).2 where
  toSteady := ⟨rfl, rfl, rfl, id, .inr, id, id⟩
  toAges := ages_newRef vm kind object
  globals := fun hg => ⟨hg.isNull, get?_newRef_of_some hb hg.get? kind⟩

theorem keeps_deleteLocalRef (vm : Vm) (h : Handle) : vm.Keeps (vm.deleteLocalRef h) where
  toSteady := steady_deleteRef vm .localRef h
  toAges := ages_deleteRef vm .localRef h
  globals := fun hg => ⟨hg.isNull, get?_deleteRef_of_ne hg.get? (.inl (by simp))⟩

/-- A global reference made after all that count may be deleted again. -/
theorem Keeps.deleteGlobalRef (hk : vm.Keeps vm') (hb : vm.RefsBounded)
    (hnew : vm.lastRef < h.raw) : vm.Keeps (vm'.deleteGlobalRef h) where
  toSteady := hk.toSteady.trans (steady_deleteRef vm' .globalRef h)
  toAges := hk.toAges.trans (ages_deleteRef vm' .globalRef h)
  globals := by
    intro g object hg
    have hle := hb _ _ hg.get?
    exact ⟨hg.isNull, get?_deleteRef_of_ne (hk.globals hg).get? (.inr (by omega))⟩

/-- A change of the machine that takes nothing away that the agent relies on, and makes no global
reference. -/
structure Conserves (vm vm' : Vm) : Prop extends vm.Keeps vm' where
  globals_old : ∀ {raw object}, vm'.refs.get? raw = some ⟨object, .globalRef⟩ →
    vm.refs.get? raw = some ⟨object, .globalRef⟩

theorem Conserves.refl (vm : Vm) : vm.Conserves vm := ⟨.refl vm, id⟩

theorem Conserves.trans (hc : vm.Conserves vm') (hc' : vm'.Conserves vm'') : vm.Conserves vm'' where
  toKeeps := hc.toKeeps.trans hc'.toKeeps
  globals_old := fun hg => hc.globals_old (hc'.globals_old hg)

theorem Frame.conserves (hf : vm.Frame vm') : vm.Conserves vm' where
  toKeeps := hf.keeps
  globals_old := fun hg => hf.refs ▸ hg

theorem bounded_attach (hb : vm.RefsBounded) (caller : NativeThread) :
    (vm.attach caller).2.RefsBounded :=
  (frame_attach caller).conserves.toAges.bounded hb

theorem conserves_newLocal (hb : vm.RefsBounded) (object : HeapId) :
    vm.Conserves (vm.newLocal object).2 where
  toKeeps := keeps_newRef hb .localRef object
  globals_old := by
    intro raw target hg
    rw [newLocal, get?_newRef] at hg
    split at hg
    · cases hg
    · exact hg

theorem conserves_deleteLocalRef (vm : Vm) (h : Handle) : vm.Conserves (vm.deleteLocalRef h) where
  toKeeps := keeps_deleteLocalRef vm h
  globals_old := get?_deleteRef

theorem Touch.conserves (ht : vm.Touch vm') (hb : vm.RefsBounded) : vm.Conserves vm' := by
  cases ht with
  | frame h => exact h.conserves
  | openRef object => exact conserves_newLocal hb object
  | closeRef h => exact conserves_deleteLocalRef vm h

theorem conserves_of_touches (ht : ReflTransGen Touch vm vm') (hb : vm.RefsBounded) :
    vm.Conserves vm' := by
  induction ht with
  | refl => exact .refl vm
  | tail _ ht ih => exact ih.trans (ht.conserves (ih.toAges.bounded hb))

/-! ### References of callbacks -/

/-- A reference that is no global one, valid or not. -/
structure Passing (vm : Vm) (h : Handle) : Prop where
  raw_le : h.raw ≤ vm.lastRef
  kind : ∀ ref, vm.refs.get? h.raw = some ref → ref.kind = .localRef

theorem Passing.ages (hp : vm.Passing h) (ha : vm.Ages vm') : vm'.Passing h where
  raw_le := Nat.le_trans hp.raw_le ha.lastRef_le
  kind := by
    intro ref href
    have hle := hp.raw_le
    rcases ha.old_or_new href with hold | hnew
    · exact hp.kind ref hold
    · omega

theorem passing_newLocal (vm : Vm) (object : HeapId) :
    (vm.newLocal object).2.Passing (vm.newLocal object).1 where
  raw_le := Nat.le_refl _
  kind := by
    intro ref href
    simp [newLocal, newRef] at href
    simp [← href]

/-- A reference that is no global one may be taken away. -/
theorem Passing.conserves_erase (hp : vm.Passing h) :
    vm.Conserves { vm with refs := vm.refs.erase h.raw } where
  toSteady := ⟨rfl, rfl, rfl, id, .inr, id, id⟩
  lastRef_le := Nat.le_refl _
  old_or_new := fun href => .inl (Table.get?_erase_eq_some.mp href).2
  globals_old := fun hg => (Table.get?_erase_eq_some.mp hg).2
  globals := by
    intro g object hg
    have hne : g.raw ≠ h.raw := fun heq => by
      have hkind := hp.kind _ (heq ▸ hg.get?)
      cases hkind
    exact ⟨hg.isNull, (Table.get?_erase_of_ne hne).trans hg.get?⟩

theorem touch_optionalLocal (object : Option HeapId) (vm : Vm) :
    ReflTransGen Touch vm (optionalLocal object vm).2 := by
  cases object with
  | none => exact .refl
  | some object => exact .single (.openRef object)

theorem touch_enterCallback (c : Callback HeapId) (vm : Vm) :
    ReflTransGen Touch vm (vm.enterCallback c).2 := by
  apply (touch_optionalLocal c.thread? vm).trans
  apply (touch_optionalLocal c.other? _).trans
  rw [enterCallback]
  dsimp only
  split
  · exact .single (touch_of_heap_eq rfl rfl rfl rfl rfl rfl rfl)
  · exact .refl

theorem ages_optionalLocal (object : Option HeapId) (vm : Vm) :
    vm.Ages (optionalLocal object vm).2 := by
  cases object with
  | none => exact .refl vm
  | some object => exact ages_newRef vm .localRef object

theorem passing_optionalLocal {object : Option HeapId} (hsome : object.isSome) (vm : Vm) :
    (optionalLocal object vm).2.Passing (optionalLocal object vm).1 := by
  cases object with
  | none => cases hsome
  | some object => exact passing_newLocal vm object

/-- The references that a callback carries are local ones. -/
theorem passing_enterCallback (c : Callback HeapId) (vm : Vm) :
    (∀ h, (vm.enterCallback c).1.thread? = some h → (vm.enterCallback c).2.Passing h) ∧
      ∀ h, (vm.enterCallback c).1.other? = some h → (vm.enterCallback c).2.Passing h := by
  let near := optionalLocal c.thread? vm
  let far := optionalLocal c.other? near.2
  have hages : far.2.Ages (vm.enterCallback c).2 := by
    rw [enterCallback]
    dsimp only
    split <;> exact .of_refs_eq rfl rfl
  have hnear : near.2.Ages far.2 := ages_optionalLocal c.other? near.2
  have hcarried : (vm.enterCallback c).1 = c.withObjects near.1 far.1 := rfl
  rw [hcarried]
  constructor
  · intro h hh
    rw [Callback.thread?_withObjects] at hh
    obtain ⟨thread, hthread, rfl⟩ := Option.map_eq_some_iff.mp hh
    have hsome : c.thread?.isSome := by rw [hthread]; rfl
    have hpassing := passing_optionalLocal hsome vm
    exact (hpassing.ages hnear).ages hages
  · intro h hh
    rw [Callback.other?_withObjects] at hh
    obtain ⟨other, hother, rfl⟩ := Option.map_eq_some_iff.mp hh
    have hsome : c.other?.isSome := by rw [hother]; rfl
    have hpassing := passing_optionalLocal hsome near.2
    exact hpassing.ages hages

/-- The machine without a reference that a callback carried. -/
def without (h : Option Handle) (vm : Vm) : Vm :=
  match h with
  | some h => { vm with refs := vm.refs.erase h.raw }
  | none => vm

theorem conserves_without {h : Option Handle} (hp : ∀ g, h = some g → vm.Passing g) :
    vm.Conserves (vm.without h) := by
  cases h with
  | none => exact .refl vm
  | some g => exact (hp g rfl).conserves_erase

theorem without_eq (vm : Vm) (h : Option Handle) : ∃ refs, vm.without h = { vm with refs } := by
  cases h with
  | none => exact ⟨vm.refs, rfl⟩
  | some g => exact ⟨_, rfl⟩

/-- Ending a callback unmarks its thread and takes away the references that it carried. -/
theorem leaveCallback_eq (vm : Vm) (c : Callback HeapId) (carried : Callback Handle) :
    ∃ inCallback, vm.leaveCallback c carried =
      (({ vm with inCallback } : Vm).without carried.thread?).without carried.other? := by
  cases hc : c.thread? with
  | none =>
      refine ⟨vm.inCallback, ?_⟩
      rw [leaveCallback, hc]
      cases carried.thread? <;> cases carried.other? <;> rfl
  | some id =>
      refine ⟨vm.inCallback.filter fun t => t ≠ id, ?_⟩
      rw [leaveCallback, hc]
      cases carried.thread? <;> cases carried.other? <;> rfl

/-- Ending a callback changes nothing but marks and references. -/
theorem leaveCallback_leaves (vm : Vm) (c : Callback HeapId) (carried : Callback Handle) :
    ∃ inCallback refs, vm.leaveCallback c carried = { vm with inCallback, refs } := by
  obtain ⟨inCallback, hleave⟩ := leaveCallback_eq vm c carried
  obtain ⟨refs, hthread⟩ := without_eq { vm with inCallback } carried.thread?
  obtain ⟨refs', hother⟩ := without_eq { vm with inCallback, refs } carried.other?
  exact ⟨inCallback, refs', by rw [hleave, hthread, hother]⟩

/-- Ending a callback takes away the references that it carried and nothing else. -/
theorem conserves_leaveCallback (c : Callback HeapId) {carried : Callback Handle}
    (hthread : ∀ h, carried.thread? = some h → vm.Passing h)
    (hother : ∀ h, carried.other? = some h → vm.Passing h) :
    vm.Conserves (vm.leaveCallback c carried) := by
  obtain ⟨inCallback, heq⟩ := leaveCallback_eq vm c carried
  have hunmarked : vm.Frame { vm with inCallback } := .of_heap_eq rfl rfl rfl rfl rfl rfl id
  have hages := hunmarked.conserves.toAges
  have hfirst := conserves_without fun h hh => (hthread h hh).ages hages
  have hsecond := conserves_without fun h hh => ((hother h hh).ages hages).ages hfirst.toAges
  rw [heq]
  exact (hunmarked.conserves.trans hfirst).trans hsecond

/-! ### Counting references -/

/-- The valid references of a kind, by their numbers. -/
def refsOf (vm : Vm) (kind : RefKind) : List (Nat × Ref) :=
  vm.refs.entries.filter fun e => e.2.kind = kind

theorem mem_refsOf {kind : RefKind} {raw : Nat} {ref : Ref} :
    (raw, ref) ∈ vm.refsOf kind ↔ vm.refs.get? raw = some ref ∧ ref.kind = kind := by
  simp [refsOf, Table.mem_entries]

theorem refCount_eq_length (vm : Vm) (kind : RefKind) :
    vm.refCount kind = (vm.refsOf kind).length := by
  rw [refCount, Table.values, List.countP_map, List.countP_eq_length_filter]
  rfl

theorem nodup_raw_refsOf (vm : Vm) (kind : RefKind) : ((vm.refsOf kind).map Prod.fst).Nodup :=
  vm.refs.distinct.sublist (List.filter_sublist.map Prod.fst)

theorem nodup_refsOf (vm : Vm) (kind : RefKind) : (vm.refsOf kind).Nodup :=
  .of_map Prod.fst (nodup_raw_refsOf vm kind)

theorem refCount_newRef (hb : vm.RefsBounded) (kind : RefKind) (object : HeapId) :
    (vm.newRef kind object).2.refCount kind = vm.refCount kind + 1 := by
  simp [refCount, newRef, Table.values_insert_of_none hb.get?_next]

end Vm

end DebugAgent
