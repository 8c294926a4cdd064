import DebugAgent.Proofs.Past

/-!
# Local references come back

Whatever the agent does, it leaves as many local references as it found, and no exception pending
that was not pending before.  An action is judged by what its caller owns afterwards: `Lends` says
that it leaves the references that were valid before, and beside them exactly those that it hands
out.  A bracket takes what a call has handed out, so a command that is put together from brackets
owns nothing in the end.

Some reads raise an exception, and the agent clears it before it does anything else.  What may raise
is therefore kept apart from what may not.
-/

namespace DebugAgent

open DebugAgent.Action Command

/-! ### One machine after another -/

namespace Vm

/-- A machine with the local references of an earlier one, and beside them `hs`.  An exception is
pending only if one was, unless something has happened that may raise one. -/
structure Opened (raises : Bool) (vm : Vm) (hs : List Handle) (vm' : Vm) : Prop where
  ages : vm.Ages vm'
  locals : ∀ raw object, vm.refs.get? raw = some ⟨object, .localRef⟩ ↔
    vm'.refs.get? raw = some ⟨object, .localRef⟩ ∧ ∀ h ∈ hs, h.isNull = false → h.raw ≠ raw
  calm : raises = false → vm'.exceptionPending = true → vm.exceptionPending = true

namespace Opened

variable {raises : Bool} {vm vm' vm'' : Vm} {hs hs' : List Handle}

/-- The references stay as they are. -/
theorem of_refs_eq (hrefs : vm'.refs = vm.refs) (hlast : vm'.lastRef = vm.lastRef)
    (hcalm : raises = false → vm'.exceptionPending = vm.exceptionPending) :
    Opened raises vm [] vm' where
  ages := .of_refs_eq hrefs hlast
  locals := fun raw object => by simp [hrefs]
  calm := fun hquiet h => hcalm hquiet ▸ h

theorem refl (vm : Vm) : Opened raises vm [] vm := of_refs_eq rfl rfl fun _ => rfl

theorem trans (h : Opened raises vm hs vm') (h' : Opened raises vm' hs' vm'') :
    Opened raises vm (hs ++ hs') vm'' where
  ages := h.ages.trans h'.ages
  locals := by
    intro raw object
    rw [h.locals, h'.locals, and_assoc]
    simp only [List.mem_append, or_imp, forall_and, and_comm]
  calm := fun hquiet hpending => h.calm hquiet (h'.calm hquiet hpending)

/-- What may not raise an exception may raise one. -/
theorem weaken (h : Opened false vm hs vm') : Opened raises vm hs vm' where
  ages := h.ages
  locals := h.locals
  calm := fun _ => h.calm rfl

/-- Only the references that are handed out matter, and not their order. -/
theorem congr (h : Opened raises vm hs vm')
    (hsame : ∀ g : Handle, g.isNull = false → (g ∈ hs ↔ g ∈ hs')) : Opened raises vm hs' vm' where
  ages := h.ages
  locals := by
    intro raw object
    rw [h.locals]
    apply and_congr_right
    intro _
    constructor
    · exact fun hfree g hg hnull => hfree g ((hsame g hnull).mpr hg) hnull
    · exact fun hfree g hg hnull => hfree g ((hsame g hnull).mp hg) hnull
  calm := h.calm

/-- An exception that came up is cleared. -/
theorem clearException (h : Opened true vm hs vm') : Opened false vm hs vm'.clearException where
  ages := ⟨h.ages.lastRef_le, fun href => h.ages.old_or_new href⟩
  locals := h.locals
  calm := fun _ hpending => by cases hpending

/-- Giving a reference back. -/
theorem dropLocal {h : Handle} (ho : Opened raises vm (h :: hs) vm') :
    Opened raises vm hs (dropLocal vm' h) := by
  cases hnull : h.isNull with
  | true =>
      have hsame : Command.dropLocal vm' h = vm' := by simp [Command.dropLocal, hnull]
      rw [hsame]
      apply ho.congr
      intro g hg
      have hne : g ≠ h := by
        rintro rfl
        rw [hnull] at hg
        cases hg
      simp [hne]
  | false =>
      have hsame : Command.dropLocal vm' h = vm'.deleteLocalRef h := by
        simp [Command.dropLocal, hnull]
      rw [hsame]
      refine ⟨ho.ages.trans (ages_deleteRef vm' .localRef h), ?_, ?_⟩
      · intro raw object
        rw [ho.locals]
        constructor
        · rintro ⟨hvalid, hfree⟩
          have hne : raw ≠ h.raw := (hfree h List.mem_cons_self hnull).symm
          exact ⟨get?_deleteRef_of_ne hvalid (.inr hne),
            fun g hg => hfree g (List.mem_cons_of_mem h hg)⟩
        · rintro ⟨hvalid, hfree⟩
          refine ⟨get?_deleteRef hvalid, ?_⟩
          intro g hg hgnull
          rcases List.mem_cons.mp hg with rfl | hg
          · rintro rfl
            have hbefore := get?_deleteRef hvalid
            simp [deleteLocalRef, deleteRef, hbefore] at hvalid
          · exact hfree g hg hgnull
      · intro hquiet hpending
        apply ho.calm hquiet
        rw [deleteLocalRef, deleteRef] at hpending
        split at hpending
        · split at hpending <;> exact hpending
        · exact hpending

/-- Giving back all references that were handed out. -/
theorem dropLocals (ho : Opened raises vm hs vm') :
    Opened raises vm [] (hs.foldl Command.dropLocal vm') := by
  induction hs generalizing vm' with
  | nil => exact ho
  | cons h hs ih => exact ih ho.dropLocal

end Opened

variable {raises : Bool} {vm : Vm}

theorem opened_newLocal (hb : vm.RefsBounded) (object : HeapId) :
    Opened raises vm [(vm.newLocal object).1] (vm.newLocal object).2 where
  ages := ages_newRef vm .localRef object
  locals := by
    intro raw other
    have hget := get?_newRef vm .localRef object raw
    rw [newLocal, hget]
    constructor
    · intro hvalid
      have hle := hb raw _ hvalid
      have hne : raw ≠ vm.lastRef + 8 := by omega
      simp only [hne, if_false, hvalid, List.mem_singleton, forall_eq, true_and]
      exact fun _ heq => hne heq.symm
    · rintro ⟨hvalid, hfree⟩
      have hne : raw ≠ vm.lastRef + 8 := by
        rintro rfl
        exact hfree _ List.mem_cons_self (isNull_newRef vm .localRef object) rfl
      simpa only [hne, if_false] using hvalid
  calm := fun _ hpending => hpending

/-- A global reference is none of the local ones. -/
theorem opened_newGlobal (hb : vm.RefsBounded) (object : HeapId) :
    Opened raises vm [] (vm.newRef .globalRef object).2 where
  ages := ages_newRef vm .globalRef object
  locals := by
    intro raw other
    constructor
    · exact fun hvalid => ⟨get?_newRef_of_some hb hvalid .globalRef, by simp⟩
    · rintro ⟨hvalid, -⟩
      rw [get?_newRef] at hvalid
      split at hvalid
      · cases hvalid
      · exact hvalid
  calm := fun _ hpending => hpending

theorem opened_deleteGlobalRef (vm : Vm) (h : Handle) :
    Opened raises vm [] (vm.deleteGlobalRef h) where
  ages := ages_deleteRef vm .globalRef h
  locals := by
    intro raw object
    constructor
    · exact fun hvalid => ⟨get?_deleteRef_of_ne hvalid (.inl (by simp)), by simp⟩
    · exact fun hvalid => get?_deleteRef hvalid.1
  calm := by
    intro _ hpending
    obtain ⟨refs, heq⟩ := deleteRef_eq vm .globalRef h
    rwa [deleteGlobalRef, heq] at hpending

theorem opened_newLocals (hb : vm.RefsBounded) (ids : List HeapId) :
    Opened raises vm (newLocals ids vm).1 (newLocals ids vm).2 := by
  induction ids generalizing vm with
  | nil => exact .refl vm
  | cons id ids ih =>
      have hfirst : Opened raises vm _ (newLocal id vm).2 := opened_newLocal hb id
      exact hfirst.trans (ih (hfirst.ages.bounded hb))

theorem opened_giveOut (hb : vm.RefsBounded) (value : Stored) :
    Opened raises vm (vm.giveOut value).1.owned (vm.giveOut value).2 := by
  rcases value with v | _ | id
  · exact .refl vm
  · exact (Opened.refl vm).congr fun g hg => by
      have hne : g ≠ .null := by
        rintro rfl
        cases hg
      simp [giveOut, RawValue.owned, hne]
  · exact opened_newLocal hb id

/-- A reference that may be null is handed out. -/
theorem opened_null (vm : Vm) : Opened raises vm [.null] vm :=
  (Opened.refl vm).congr fun g hg => by
    have hne : g ≠ .null := by
      rintro rfl
      cases hg
    simp [hne]

theorem opened_newLocalRef (hb : vm.RefsBounded) (h : Handle) :
    Opened raises vm [(vm.newLocalRef h).1] (vm.newLocalRef h).2 := by
  rw [newLocalRef]
  split
  · exact opened_newLocal hb _
  · exact opened_null vm

theorem opened_superclassRef (hb : vm.RefsBounded) (cls : Handle) :
    Opened raises vm [(vm.superclassRef cls).1] (vm.superclassRef cls).2 := by
  rw [superclassRef]
  split
  · exact opened_newLocal hb _
  · exact opened_null vm

theorem opened_raise (vm : Vm) : Opened true vm [] vm.raise :=
  .of_refs_eq rfl rfl fun hquiet => by cases hquiet

theorem owned_zero (kind : ValueKind) (g : Handle) (hg : g.isNull = false) :
    g ∉ (RawValue.zero kind).owned := by
  cases kind <;> simp only [RawValue.zero, RawValue.owned, List.not_mem_nil, not_false_eq_true,
    List.mem_singleton]
  rintro rfl
  cases hg

/-- A read that raises yields a value that owns nothing. -/
theorem opened_raise_zero (vm : Vm) (kind : ValueKind) :
    Opened true vm (RawValue.zero kind).owned vm.raise :=
  (opened_raise vm).congr fun g hg => by simp [owned_zero kind g hg]

theorem opened_staticField (hb : vm.RefsBounded) (cls : Handle) (field : FieldId)
    (kind : ValueKind) :
    Opened true vm (vm.staticField cls field kind).1.owned (vm.staticField cls field kind).2 := by
  have hread : Opened true vm [] vm.countFieldRead := .of_refs_eq rfl rfl fun _ => rfl
  have hb' : vm.countFieldRead.RefsBounded := hb
  simp only [staticField]
  split
  · split
    · exact hread.trans (opened_giveOut hb' _)
    · exact hread.trans (opened_raise_zero _ kind)
  · exact hread.trans (opened_raise_zero _ kind)

end Vm

/-! ### What an action lends -/

namespace Action

variable {σ ε δ α β : Type} {machine : σ → Vm} {raises : Bool} {owned : α → List Handle}

/-- The references that an outcome hands out: those of the result, and none without a result.  Only a
result may come with an exception. -/
def HandsOut (raises : Bool) (owned : α → List Handle) (vm : Vm) (outcome : Except (Stop ε) α)
    (vm' : Vm) : Prop :=
  match outcome with
  | .ok a => vm.Opened raises (owned a) vm'
  | .error _ => vm.Opened false [] vm'

/-- Whatever comes of it, the action leaves the local references of the machine in its state, and
beside them only those that it hands out. -/
def Lends (machine : σ → Vm) (raises : Bool) (owned : α → List Handle) (x : Action σ ε α) : Prop :=
  ∀ s, (machine s).RefsBounded →
    HandsOut raises owned (machine s) (x.perform s).1 (machine (x.perform s).2)

/-- An action that hands nothing out and raises nothing. -/
def Balanced (machine : σ → Vm) (x : Action σ ε α) : Prop := Lends machine false (fun _ => []) x

theorem Lends.weaken {x : Action σ ε α} (hx : Lends machine false owned x) :
    Lends machine raises owned x := by
  intro s hb
  have hopened := hx s hb
  cases hresult : (x.perform s).1 with
  | ok a =>
      rw [hresult] at hopened
      exact Vm.Opened.weaken hopened
  | error stop =>
      rw [hresult] at hopened
      exact hopened

theorem Balanced.opened {x : Action σ ε α} (hx : Balanced machine x) {s : σ}
    (hb : (machine s).RefsBounded) : (machine s).Opened false [] (machine (x.perform s).2) := by
  have hopened := hx s hb
  cases hresult : (x.perform s).1 <;> simpa [hresult, HandsOut] using hopened

theorem balanced_of_opened {x : Action σ ε α}
    (h : ∀ s, (machine s).RefsBounded → (machine s).Opened false [] (machine (x.perform s).2)) :
    Balanced machine x := by
  intro s hb
  cases hresult : (x.perform s).1 <;> exact h s hb

theorem balanced_of_eq {x : Action σ ε α} (h : ∀ s, (x.perform s).2 = s) : Balanced machine x :=
  balanced_of_opened fun s _ => by
    rw [h s]
    exact .refl _

theorem balanced_pure (a : α) : Balanced machine (pure a : Action σ ε α) :=
  balanced_of_eq fun _ => rfl

theorem balanced_refuse (cause : ε) : Balanced machine (refuse cause : Action σ ε α) :=
  balanced_of_eq fun _ => rfl

theorem balanced_collapse : Balanced machine (collapse : Action σ ε α) :=
  balanced_of_eq fun _ => rfl

theorem balanced_look (f : σ → α) : Balanced machine (look f : Action σ ε α) :=
  balanced_of_eq fun _ => rfl

theorem balanced_inspect (f : σ → Except ε α) :
    Balanced machine (inspect f : Action σ ε α) :=
  balanced_of_eq fun _ => rfl

theorem balanced_require (cause : ε) (a? : Option α) :
    Balanced machine (require cause a? : Action σ ε α) :=
  balanced_of_eq fun _ => by cases a? <;> rfl

theorem balanced_expect (a? : Option α) : Balanced machine (expect a? : Action σ ε α) :=
  balanced_of_eq fun _ => by cases a? <;> rfl

theorem balanced_guard (condition : Bool) (cause : ε) :
    Balanced machine (guard condition cause : Action σ ε Unit) :=
  balanced_of_eq fun _ => by cases condition <;> rfl

theorem balanced_change {f : σ → σ} (h : ∀ s, (machine s).RefsBounded →
    (machine s).Opened false [] (machine (f s))) :
    Balanced machine (change f : Action σ ε Unit) :=
  balanced_of_opened h

theorem lends_update {f : σ → α × σ}
    (h : ∀ s, (machine s).RefsBounded →
      (machine s).Opened raises (owned (f s).1) (machine (f s).2)) :
    Lends machine raises owned (update f : Action σ ε α) := h

/-- What the first action hands out is not taken back, so it has to be nothing; and what it raises
would be left pending. -/
theorem lends_bind {x : Action σ ε α} {f : α → Action σ ε β} {owned : β → List Handle}
    (hx : Balanced machine x) (hf : ∀ a, Lends machine raises owned (f a)) :
    Lends machine raises owned (x >>= f) := by
  intro s hb
  have hfirst := hx.opened hb
  rw [perform_bind]
  cases hperform : x.perform s with
  | mk result s' =>
      rw [hperform] at hfirst
      cases result with
      | error stop => exact hfirst
      | ok a =>
          have hlast := hf a s' (hfirst.ages.bounded hb)
          cases hresult : ((f a).perform s').1 with
          | ok b =>
              rw [hresult] at hlast
              exact hfirst.weaken.trans hlast
          | error stop =>
              rw [hresult] at hlast
              exact hfirst.trans hlast

theorem balanced_bind {x : Action σ ε α} {f : α → Action σ ε β} (hx : Balanced machine x)
    (hf : ∀ a, Balanced machine (f a)) : Balanced machine (x >>= f) :=
  lends_bind hx hf

theorem lends_ite {c : Prop} [Decidable c] {x y : Action σ ε α}
    (hx : Lends machine raises owned x) (hy : Lends machine raises owned y) :
    Lends machine raises owned (if c then x else y) := by
  split
  · exact hx
  · exact hy

theorem balanced_map (f : α → β) {x : Action σ ε α} (hx : Balanced machine x) :
    Balanced machine (f <$> x) := by
  rw [map_eq_pure_bind]
  exact balanced_bind hx fun a => balanced_pure (f a)

theorem balanced_mapM {f : α → Action σ ε β} (hf : ∀ a, Balanced machine (f a))
    (as : List α) : Balanced machine (as.mapM f) := by
  induction as with
  | nil => exact balanced_pure []
  | cons a as ih =>
      rw [List.mapM_cons]
      exact balanced_bind (hf a) fun b => balanced_bind ih fun bs => balanced_pure (b :: bs)

theorem balanced_forM {f : α → Action σ ε Unit} (hf : ∀ a, Balanced machine (f a))
    (as : List α) : Balanced machine (as.forM f) := by
  induction as with
  | nil => exact balanced_pure ()
  | cons a as ih => exact balanced_bind (hf a) fun _ => ih

theorem balanced_foldlM {f : β → α → Action σ ε β} (hf : ∀ b a, Balanced machine (f b a))
    (as : List α) (b : β) : Balanced machine (as.foldlM f b) := by
  induction as generalizing b with
  | nil => exact balanced_pure b
  | cons a as ih =>
      rw [List.foldlM_cons]
      exact balanced_bind (hf b a) ih

theorem lends_attempt {x : Action σ ε α}
    (hx : Lends machine false owned x) :
    Lends machine false (ifOk owned) (x.attempt : Action σ δ _) := by
  intro s hb
  have hopened := hx s hb
  simp only [attempt, perform_of]
  split <;> rename_i hperform <;> rw [hperform] at hopened <;> exact hopened

theorem balanced_attempt {x : Action σ ε α} (hx : Balanced machine x) :
    Balanced machine (x.attempt : Action σ δ _) := by
  apply balanced_of_opened
  intro s hb
  have hs : ((x.attempt : Action σ δ _).perform s).2 = (x.perform s).2 := by
    simp only [attempt, perform_of]
    split <;> simp_all
  rw [hs]
  exact hx.opened hb

theorem lends_mapCause (f : ε → δ) {x : Action σ ε α}
    (hx : Lends machine raises owned x) : Lends machine raises owned (x.mapCause f) := by
  intro s hb
  have hopened := hx s hb
  simp only [mapCause, perform_of]
  split <;> rename_i hperform <;> rw [hperform] at hopened <;> exact hopened

end Action

/-! ### Calls of the machine -/

namespace Vm

variable {ε : Type}

theorem balanced_objectBehind (h : Handle) :
    Balanced id (objectBehind h : Action Vm ε _) := by
  apply balanced_bind (balanced_look _)
  intro target
  cases target with
  | none => exact balanced_pure none
  | some object =>
      exact balanced_bind (balanced_look _) fun _ => balanced_bind (balanced_expect _) fun _ =>
        balanced_pure _

theorem balanced_elementsBehind (h : Handle) :
    Balanced id (elementsBehind h : Action Vm ε _) := by
  apply balanced_bind (balanced_objectBehind h)
  intro object
  split <;> exact balanced_pure _

theorem balanced_arrayLength (array : Handle) :
    Balanced id (arrayLength array : Action Vm ε _) := by
  apply balanced_bind (balanced_elementsBehind array)
  intro elements
  cases elements <;> exact balanced_pure _

theorem balanced_stringChars (h : Handle) :
    Balanced id (stringChars h : Action Vm ε _) := by
  apply balanced_bind (balanced_objectBehind h)
  intro object
  split <;> exact balanced_pure _

/-- A read that fails raises an exception. -/
theorem lends_raise {α : Type} {owned : α → List Handle} {a : α}
    (hnone : ∀ g : Handle, g.isNull = false → g ∉ owned a) :
    Lends id true owned (do change raise; return a : Action Vm ε α) :=
  fun vm _ => (opened_raise vm).congr fun g hg => by simpa [HandsOut, Except.map] using hnone g hg

theorem lends_arrayRegion (array : Handle) (kind : ValueKind) (first length : Int) :
    Lends id true (fun _ => []) (arrayRegion array kind first length : Action Vm ε _) := by
  apply lends_bind (balanced_elementsBehind array)
  intro elements
  cases elements with
  | none => exact lends_raise fun g _ => List.not_mem_nil
  | some elements => exact lends_ite (balanced_pure _).weaken (lends_raise fun g _ => List.not_mem_nil)

theorem not_mem_null {g : Handle} (hg : g.isNull = false) : g ∉ [Handle.null] := by
  rw [List.mem_singleton]
  rintro rfl
  cases hg

theorem lends_null : Lends id false (fun h => [h]) (pure .null : Action Vm ε Handle) :=
  fun vm _ => opened_null vm

theorem lends_newLocal (object : HeapId) :
    Lends id false (fun h => [h]) (update (newLocal object) : Action Vm ε Handle) :=
  lends_update fun _ hb => opened_newLocal hb object

theorem lends_newLocals (ids : Vm → List HeapId) :
    Lends id false id (update (fun vm => vm.newLocals (ids vm)) : Action Vm ε _) :=
  lends_update fun vm hb => opened_newLocals hb (ids vm)

theorem lends_objectClassRef (h : Handle) :
    Lends id false (fun h => [h]) (objectClassRef h : Action Vm ε _) := by
  apply lends_bind (balanced_objectBehind h)
  intro object
  cases object with
  | none => exact lends_null
  | some object => exact lends_newLocal object.cls

theorem lends_arrayElement (array : Handle) (index : Int) :
    Lends id true (fun h => [h]) (arrayElement array index : Action Vm ε _) := by
  apply lends_bind (balanced_elementsBehind array)
  intro elements
  dsimp only
  generalize elements.bind _ = element
  split
  · exact (lends_newLocal _).weaken
  · exact lends_null.weaken
  · exact lends_raise fun g => not_mem_null

theorem lends_instanceField (object : Handle) (field : FieldId) (kind : ValueKind) :
    Lends id true RawValue.owned (instanceField object field kind : Action Vm ε _) := by
  have hread : Balanced id (change countFieldRead : Action Vm ε _) :=
    balanced_change fun _ _ => .of_refs_eq rfl rfl fun _ => rfl
  apply lends_bind hread
  intro _
  apply lends_bind (balanced_look _)
  intro decl
  apply lends_bind (balanced_objectBehind object)
  intro behind
  split
  · exact lends_ite (lends_raise (owned_zero kind))
      (lends_update fun _ hb => opened_giveOut hb _)
  · exact lends_raise (owned_zero kind)

theorem lends_getLocal (thread : Handle) (depth slot : Int) (kind : SlotKind) :
    Lends id false RawValue.owned (getLocal thread depth slot kind) :=
  lends_bind (balanced_inspect _) fun _ => lends_update fun _ hb => opened_giveOut hb _

theorem lends_methodDeclaringClass (method : MethodId) :
    Lends id false (fun h => [h]) (methodDeclaringClass method) :=
  lends_bind (balanced_inspect _) fun _ => lends_newLocal _

theorem lends_implementedInterfaces (cls : Handle) :
    Lends id false id (implementedInterfaces cls) :=
  lends_bind (balanced_inspect _) fun body => lends_newLocals fun _ => body.interfaces

theorem lends_currentThread (caller : NativeThread) :
    Lends id false (fun h => [h]) (currentThread caller) :=
  lends_bind (balanced_look _) fun _ => lends_bind (balanced_require _ _) fun _ => lends_newLocal _

/-- Both references of what is told about a thread are handed out. -/
theorem lends_threadInfo (thread : Handle) :
    Lends id false (fun info => [info.loader, info.group]) (threadInfo thread) := by
  apply lends_bind (balanced_inspect _)
  intro body vm hb
  have hgroup : Opened false vm _ (newLocal body.group vm).2 := opened_newLocal hb body.group
  have hloader : Opened false _ _ (newLocal classLoader (newLocal body.group vm).2).2 :=
    opened_newLocal (hgroup.ages.bounded hb) classLoader
  apply (hgroup.trans hloader).congr
  intro g _
  rw [List.mem_append, or_comm, ← List.mem_append]
  rfl

theorem balanced_locateThread (thread : Handle) :
    Balanced id (locateThread thread) := by
  refine balanced_bind (balanced_look _) fun _ => balanced_bind (balanced_require _ _) fun _ => ?_
  refine balanced_bind (balanced_look _) fun _ => balanced_bind (balanced_expect _) fun object => ?_
  split
  · exact balanced_pure _
  · exact balanced_refuse _

theorem balanced_setBody (object : HeapId) (body : Body) :
    Balanced id (change (setBody object body) : Call Unit) :=
  balanced_change fun _ _ => .of_refs_eq rfl rfl fun _ => rfl

theorem balanced_suspendOne (caller : NativeThread) (thread : Handle) :
    Balanced id (suspendOne caller thread) := by
  refine balanced_bind (balanced_change fun vm _ => ?_) fun _ => ?_
  · split
    · split
      · exact .of_refs_eq rfl rfl fun _ => rfl
      · exact .refl vm
    · exact .refl vm
  apply balanced_bind (balanced_locateThread thread)
  rintro ⟨object, body⟩
  dsimp only
  split
  · exact balanced_refuse _
  · exact lends_ite (balanced_refuse _) (lends_ite (balanced_refuse _) (balanced_setBody object _))

theorem balanced_resumeOne (thread : Handle) : Balanced id (resumeOne thread) := by
  apply balanced_bind (balanced_locateThread thread)
  rintro ⟨object, body⟩
  exact lends_ite (balanced_refuse _) (lends_ite (balanced_refuse _) (balanced_setBody object _))

theorem balanced_suspendThread (caller : NativeThread) (thread : Handle) :
    Balanced id (suspendThread caller thread) :=
  balanced_bind (balanced_inspect _) fun _ => balanced_suspendOne caller thread

theorem balanced_resumeThread (thread : Handle) : Balanced id (resumeThread thread) :=
  balanced_bind (balanced_inspect _) fun _ => balanced_resumeOne thread

theorem balanced_suspendThreads (caller : NativeThread) (threads : List Handle) :
    Balanced id (suspendThreads caller threads) :=
  balanced_bind (balanced_inspect _) fun _ =>
    balanced_mapM (fun thread => balanced_attempt (balanced_suspendOne caller thread)) threads

theorem balanced_resumeThreads (threads : List Handle) :
    Balanced id (resumeThreads threads) :=
  balanced_bind (balanced_inspect _) fun _ =>
    balanced_mapM (fun thread => balanced_attempt (balanced_resumeOne thread)) threads

theorem balanced_getTag (h : Handle) : Balanced id (getTag h) := by
  refine balanced_bind (balanced_inspect _) fun _ => balanced_bind (balanced_look _) fun _ => ?_
  refine balanced_bind (balanced_require _ _) fun _ => balanced_bind (balanced_look _) fun _ => ?_
  exact balanced_bind (balanced_expect _) fun _ => balanced_pure _

theorem balanced_setTag (h : Handle) (tag : Int) : Balanced id (setTag h tag) := by
  refine balanced_bind (balanced_inspect _) fun _ => balanced_bind (balanced_look _) fun _ => ?_
  refine balanced_bind (balanced_require _ _) fun _ => balanced_bind (balanced_look _) fun _ => ?_
  exact balanced_bind (balanced_expect _) fun _ =>
    balanced_change fun _ _ => .of_refs_eq rfl rfl fun _ => rfl

theorem balanced_setBreakpoint (method : MethodId) (location : CodeIndex) :
    Balanced id (setBreakpoint method location) := by
  refine balanced_bind (balanced_inspect _) fun _ => balanced_bind (balanced_inspect _) fun _ => ?_
  refine lends_ite (balanced_refuse _) (balanced_bind (balanced_look _) fun _ => ?_)
  exact lends_ite (balanced_refuse _)
    (balanced_change fun _ _ => .of_refs_eq rfl rfl fun _ => rfl)

theorem balanced_clearBreakpoint (method : MethodId) (location : CodeIndex) :
    Balanced id (clearBreakpoint method location) := by
  refine balanced_bind (balanced_inspect _) fun _ => balanced_bind (balanced_inspect _) fun _ => ?_
  refine balanced_bind (balanced_look _) fun _ => ?_
  exact lends_ite (balanced_change fun _ _ => .of_refs_eq rfl rfl fun _ => rfl) (balanced_refuse _)

theorem balanced_setNotification (enable : Bool) (kind : CallbackKind) (thread : Option Handle) :
    Balanced id (setNotification enable kind thread) :=
  balanced_bind (balanced_inspect _) fun _ => balanced_bind (balanced_inspect _) fun _ =>
    balanced_change fun _ _ => .of_refs_eq rfl rfl fun _ => rfl

end Vm

end DebugAgent
