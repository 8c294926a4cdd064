import DebugAgent.Proofs.Occurrences

/-!
# Positions that have been told

A position that the client has been told, of a frame or in an event, names a method of the machine and
its class.  It does so for as long as the identifier of the class is in use: methods are numbered and
stay declared as they are, and classes keep their kinds.
-/

namespace DebugAgent

open DebugAgent.Action Command

variable {a b : Agent} {op : Op} {method : MethodId} {index : CodeIndex} {location : Location}

/-! ### Methods are numbered -/

namespace Vm

variable {vm vm' : Vm}

/-- The methods that are declared, and the number of the next one. -/
def numbering (vm : Vm) : Table MethodId MethodDecl × MethodId := (vm.methods, vm.nextMethod)

theorem spanned_numbering : Spanned fun vm vm' => vm'.numbering = vm.numbering where
  refl := fun _ => rfl
  trans := fun h h' => h'.trans h
  move := by
    intro may a b h
    cases h with
    | inspection h =>
        cases h with
        | glance h =>
            cases h with
            | closeRef h =>
                obtain ⟨refs, heq⟩ := a.vm.deleteRef_eq .localRef h
                rw [Agent.setVm, Vm.deleteLocalRef, heq]
                rfl
            | openRef | raise | clearException | countFieldRead => rfl
        | attach _ caller =>
            change (a.vm.attach caller).2.numbering = _
            rw [Vm.attach]
            split <;> rfl
        | halt _ h => cases h <;> rfl
        | resume _ h => cases h; rfl
        | recount | enrol => rfl
    | told h => cases h <;> rfl
    | freeRef h =>
        obtain ⟨refs, heq⟩ := a.vm.deleteRef_eq .globalRef h
        rw [Agent.setVm, Vm.deleteGlobalRef, heq]
        rfl
    | holdRef | tracker | requests => rfl
  enter := fun vm c => by cases c <;> rfl
  leave := fun vm c carried => by
    obtain ⟨inCallback, refs, hleave⟩ := Vm.leaveCallback_leaves vm c carried
    rw [hleave]
    rfl

theorem numbering_changeClass (vm : Vm) (cls : HeapId) (f : ClassBody → ClassBody) :
    (vm.after (changeClass cls f)).numbering = vm.numbering := by
  simp only [after, changeClass, perform_bind, perform_look]
  cases vm.classAt? cls <;> rfl

theorem numbering_changeThread (vm : Vm) (thread : HeapId) (f : ThreadBody → ThreadBody) :
    (vm.after (changeThread thread f)).numbering = vm.numbering := by
  rw [after_changeThread]
  cases vm.threadAt? thread <;> rfl

theorem numbering_addField (vm : Vm) (decl : FieldDecl) :
    (vm.after (Vm.addField decl)).numbering = vm.numbering := by
  let near : Vm :=
    { vm with fields := vm.fields.insert vm.nextField decl, nextField := vm.nextField + 1 }
  have hclass := numbering_changeClass near decl.cls fun body =>
    { body with fields := body.fields ++ [vm.nextField] }
  rw [← Closed.after_bind_pure _ vm.nextField] at hclass
  exact hclass

theorem numbering_addMethod (vm : Vm) (cls : HeapId) (spec : MethodSpec) :
    (vm.after (Vm.addMethod cls spec)).numbering =
      (vm.methods.insert vm.nextMethod ⟨cls, spec⟩, vm.nextMethod + 8) := by
  let near : Vm :=
    { vm with
      methods := vm.methods.insert vm.nextMethod ⟨cls, spec⟩, nextMethod := vm.nextMethod + 8 }
  have hclass := numbering_changeClass near cls fun body =>
    { body with methods := body.methods ++ [vm.nextMethod] }
  rw [← Closed.after_bind_pure _ vm.nextMethod] at hclass
  exact hclass

/-- A step leaves the methods alone, or it declares one more. -/
theorem Setup.numbering_cases (vm : Vm) (step : Setup) :
    (step.apply vm).numbering = vm.numbering ∨
      ∃ decl, (step.apply vm).numbering =
        (vm.methods.insert vm.nextMethod decl, vm.nextMethod + 8) := by
  cases step with
  | addMethod cls spec => exact .inr ⟨_, numbering_addMethod vm cls spec⟩
  | defineClass | defineInterface | defineSubclass | newObject | newString | spawnThread =>
      exact .inl rfl
  | addInterface | setClassStatus | setClassModifiers | setSourceFile | setGenericSignature =>
      exact .inl (numbering_changeClass vm _ _)
  | addStaticField | addInstanceField => exact .inl (numbering_addField vm _)
  | setField object field value =>
      left
      simp only [apply, after, Vm.setField, perform_bind, perform_look]
      cases vm.heap[object]? with
      | none => rfl
      | some target =>
          obtain ⟨cls, tag, body⟩ := target
          cases body <;> rfl
  | newArray signature elements =>
      left
      simp only [apply, after, Vm.newArray, perform_bind, perform_look]
      cases vm.arrayClass? signature <;> rfl
  | failSuspend | setThreadState | terminateThread | pushFrame | popFrame | setTopLocation
  | setLocal => exact .inl (numbering_changeThread vm _ _)
  | setAttachFails | setProperty | takeRef => exact .inl rfl
  | poisonField field =>
      left
      simp only [apply, after, Vm.poisonField, perform_change]
      split <;> rfl

/-- Methods have positive numbers below the next one. -/
structure Numbered (vm : Vm) : Prop where
  pos : 0 < vm.nextMethod
  declared : ∀ {method decl}, vm.methods.get? method = some decl →
    0 < method ∧ method < vm.nextMethod

/-- Methods stay numbered, and declared as they are. -/
theorem Numbered.of_numbering (h : vm.Numbered) (hsame : vm'.numbering = vm.numbering ∨
      ∃ decl, vm'.numbering = (vm.methods.insert vm.nextMethod decl, vm.nextMethod + 8)) :
    vm'.Numbered ∧ ∀ {method decl}, vm.methods.get? method = some decl →
      vm'.methods.get? method = some decl := by
  rcases hsame with hsame | ⟨added, hadded⟩
  · obtain ⟨hmethods, hnext⟩ := Prod.mk.inj hsame
    refine ⟨⟨by rw [hnext]; exact h.pos, fun hdecl => ?_⟩, fun hdecl => by rw [hmethods, hdecl]⟩
    rw [hmethods] at hdecl
    rw [hnext]
    exact h.declared hdecl
  · obtain ⟨hmethods, hnext⟩ := Prod.mk.inj hadded
    have hlt : vm.nextMethod < vm'.nextMethod := hnext ▸ Nat.lt_add_of_pos_right (by decide)
    refine ⟨⟨Nat.zero_lt_of_lt hlt, fun {method decl} hdecl => ?_⟩, fun {method decl} hdecl => ?_⟩
    · rw [hmethods, Table.get?_insert] at hdecl
      split at hdecl
      · rename_i hself
        rw [hself]
        exact ⟨h.pos, hlt⟩
      · obtain ⟨hpos, hbelow⟩ := h.declared hdecl
        exact ⟨hpos, Nat.lt_trans hbelow hlt⟩
    · rw [hmethods, Table.get?_insert, if_neg (Nat.ne_of_lt (h.declared hdecl).2), hdecl]

end Vm

theorem numbering_apply (op : Op) (a : Agent) :
    (a.apply op).vm.numbering = a.vm.numbering ∨
      ∃ decl, (a.apply op).vm.numbering =
        (a.vm.methods.insert a.vm.nextMethod decl, a.vm.nextMethod + 8) := by
  cases hop : op.isWorldly with
  | false => exact .inl (Vm.spanned_numbering.apply hop a)
  | true =>
      cases op with
      | setup step => exact step.numbering_cases a.vm
      | _ => cases hop

theorem Agent.Alone.numbered (h : a.Alone) : a.vm.Numbered := by
  induction h with
  | start config => exact ⟨Nat.succ_pos _, fun hdecl => by cases hdecl⟩
  | apply _ op _ ih => exact (ih.of_numbering (numbering_apply op _)).1

/-- Methods that are declared stay declared as they are. -/
theorem Agent.Later.declared {may : Op → Bool} (hlater : a.Later may b) (h : a.Alone)
    {decl : MethodDecl} (hdecl : a.vm.methods.get? method = some decl) :
    b.vm.methods.get? method = some decl := by
  induction hlater with
  | now => exact hdecl
  | apply hbefore _ _ ih =>
      exact ((h.later hbefore).numbered.of_numbering (numbering_apply _ _)).2 ih

/-! ### Positions that are named -/

namespace Agent.NamesPosition

/-- One location at most names a position. -/
theorem unique {other : Location} (hs : Sound a) (h : a.NamesPosition method index location)
    (h' : a.NamesPosition method index other) : other = location := by
  obtain ⟨decl, body, hdecl, hnamed, hclass, hlocation⟩ := h
  obtain ⟨decl', body', hdecl', hnamed', hclass', hother⟩ := h'
  cases hdecl.symm.trans hdecl'
  cases hclass.symm.trans hclass'
  rw [hother, hlocation, hs.eq_of_target? hnamed hnamed']

/-- A position is named for as long as the identifier of its class is in use. -/
theorem later {may : Op → Bool} (hnamed : a.NamesPosition method index location) (h : a.Alone)
    (hlater : a.Later may b) (huse : b.Knows location.classId) :
    b.NamesPosition method index location := by
  obtain ⟨decl, body, hdecl, htarget, hclass, hlocation⟩ := hnamed
  obtain ⟨still, hstill, -, hkind⟩ := hlater.endures.classAt? hclass
  have hunfolds := hlater.unfolds h.sound.toOrderly
  exact ⟨decl, still, hlater.declared h hdecl,
    h.sound.target?_of_inUse htarget hunfolds (knows_iff.mp huse), hstill, by rw [hkind, ← hlocation]⟩

theorem knows (hnamed : a.NamesPosition method index location) :
    a.Knows location.classId := by
  obtain ⟨decl, body, -, htarget, -, -⟩ := hnamed
  obtain ⟨global, hglobal, -⟩ := Option.bind_eq_some_iff.mp htarget
  exact knows_iff.mpr (Option.isSome_iff_exists.mpr ⟨global, hglobal⟩)

/-- A position is named only where objects can be tagged. -/
theorem tags (hnamed : a.NamesPosition method index location) (h : a.Alone) :
    a.vm.grants Capabilities.canTagObjects := by
  obtain ⟨decl, body, -, htarget, -, -⟩ := hnamed
  exact h.reachable.grants_of_target? htarget

/-- The method of a position that has been named stays declared by a class. -/
theorem declaredIn {may : Op → Bool}
    (hnamed : a.NamesPosition method index location) (h : a.Alone) (hlater : a.Later may b) :
    (b.vm.declaredIn method).isSome := by
  obtain ⟨decl, body, hdecl, -, hclass, -⟩ := hnamed
  obtain ⟨still, hstill, -, -⟩ := hlater.endures.classAt? hclass
  simp [Vm.declaredIn, hlater.declared h hdecl, hstill]

end Agent.NamesPosition

/-! ### Positions that are told -/

/-- The location in the details of an event that tells a position of what happened. -/
inductive Callback.Places {ρ : Type} (vm : Vm) :
    Callback ρ → EventDetails → MethodId → CodeIndex → Location → Prop where
  | breakpoint {thread id method index location} :
      Places vm (.breakpoint thread method index) (.breakpoint id location) method index location
  | singleStep {thread id method index location} :
      Places vm (.singleStep thread method index) (.step id location) method index location
  | thrown {thread id method index location exception tagged handler catchLocation} :
      Places vm (.exception thread method index exception handler)
        (.exception id location tagged catchLocation) method index location
  | caught {thread id method index location exception tagged position caught} :
      Places vm (.exception thread method index exception (some position))
        (.exception id location tagged (some caught)) position.1 position.2 caught
  | methodEntry {thread id method start finish location}
      (hrange : vm.methodLocation method = .ok (start, finish)) :
      Places vm (.methodEntry thread method) (.methodEntry id location) method start location
  | methodExit {thread id method index location} :
      Places vm (.methodExit thread method index) (.methodExit id location) method index location

/-- In the operation the client is told of the position by this location, in a list of frames or in an
event. -/
inductive Agent.Reports (a : Agent) (method : MethodId) (index : CodeIndex) (location : Location) :
    Op → Prop where
  | frame {caller id start length infos thread info frame}
      (hinfos : (Agent.serve caller (.frames id start length) a).1 = .ok (.frames infos))
      (hnamed : a.tracker.target? a.vm id = some thread) (hmem : info ∈ infos)
      (hframe : a.vm.frameAt? thread info.frameId = some frame) (hmethod : frame.method = method)
      (hindex : frame.location = index) (hlocation : info.location = location) :
      Reports a method index location (.command caller (.frames id start length))
  | event {op near caller c fired event occurrence}
      (hcalled : a.calledBack? op = some (near, caller, c))
      (hfired : near.fired? caller c = some fired) (hmem : event ∈ fired.events.events)
      (hoccurs : a.occurrence? op = some occurrence)
      (hplaces : occurrence.Places a.vm event.details method index location) :
      Reports a method index location op

theorem Agent.Tells.tellsPosition {vm : Vm} {occurrence : Callback (Option HeapId)}
    {details : EventDetails} (htells : a.Tells occurrence details) (hmethods : vm.methods = a.vm.methods)
    (hplaces : occurrence.Places vm details method index location) :
    a.TellsPosition method index location := by
  cases hplaces with
  | breakpoint | singleStep | methodExit =>
      cases htells
      assumption
  | thrown =>
      cases htells with
      | exception _ hposition => exact hposition
  | caught =>
      cases htells with
      | exception _ _ _ hhandler =>
          cases hhandler with
          | some hcaught => exact hcaught
  | methodEntry hrange =>
      cases htells with
      | methodEntry _ hsame hposition =>
          rw [Vm.methodLocation, Vm.methodOf, ← hmethods] at hsame
          cases hsame.symm.trans hrange
          exact hposition

/-- What is told of a position names it. -/
theorem Agent.Reports.named (hreports : a.Reports method index location op) (h : a.Alone)
    (hnames : a.vm.Has op.objects) : (a.apply op).NamesPosition method index location := by
  cases hreports with
  | frame hinfos hnamed hmem hframe hmethod hindex hlocation =>
      have hlater := h.apply _ hnames
      obtain ⟨hlocates, -⟩ := locates_of_frames h.reachable.inShape hinfos hnamed hmem hframe
      subst hmethod hindex hlocation
      exact (hlocates.tells hlater.sound hlater.reachable.inShape).named
  | event hcalled hfired hmem hoccurs hplaces =>
      have hoccurred := occurrence?_of_calledBack h.sound.refs hcalled
      cases hoccurs.symm.trans hoccurred
      have hworldly : op.isWorldly = false := by
        cases op <;> first | rfl | cases hcalled
      have hworld := keepsWorld_apply hworldly a
      have htells := (h.tells_of_fired hnames hcalled hfired _ hmem).2
      exact (htells.tellsPosition hworld.methods.symm hplaces).named

end DebugAgent
