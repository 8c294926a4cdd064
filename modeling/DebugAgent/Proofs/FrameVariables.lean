import DebugAgent.Proofs.StackFrames

/-!
# Variables of frames

The variables of a frame are kept in slots.  A slot can be used by one variable after the other, so
the position of the frame decides which variable lives in it and declares how it is to be read.  The
machine keeps everything narrower than an `int` as an `int`; read at the type that the value has, it
is the value again.  The receiver of a method is the variable in its first slot, and the two ways of
asking for it come to the same.
-/

namespace DebugAgent

open DebugAgent.Action Command Tracking Reading

/-! ### Slots -/

section Slots

variable {a : Agent} {tag : TypeTag} {stored : Stored}

/-- A primitive value of the type of a variable is read as what it is, however it is kept. -/
theorem told_asSlot {v : Primitive} (hfits : ValueData.agrees tag v.data) :
    ∃ kind kept, tag.slotKind = .ok kind ∧ (Stored.primitive v).asSlot kind = some (.primitive kept) ∧
      a.told tag (.primitive kept) = .ok ⟨tag, v.data⟩ := by
  cases v with
  | boolean v =>
      cases tag <;> cases hfits
      refine ⟨_, _, rfl, rfl, ?_⟩
      cases v <;> rfl
  | byte v =>
      cases tag <;> cases hfits
      refine ⟨_, _, rfl, rfl, ?_⟩
      exact congrArg (fun v => Except.ok (Value.mk .byte (.byte v))) (Int8.toInt8_toInt32 v)
  | char v =>
      cases tag <;> cases hfits
      refine ⟨_, _, rfl, rfl, ?_⟩
      have hback : v.toUInt32.toInt32.toUInt32.toUInt16 = v := by
        rw [UInt32.toUInt32_toInt32, UInt16.toUInt16_toUInt32]
      exact congrArg (fun v => Except.ok (Value.mk .char (.char v))) hback
  | short v =>
      cases tag <;> cases hfits
      refine ⟨_, _, rfl, rfl, ?_⟩
      exact congrArg (fun v => Except.ok (Value.mk .short (.short v))) (Int16.toInt16_toInt32 v)
  | int v | long v | float v | double v =>
      cases tag <;> cases hfits
      exact ⟨_, _, rfl, rfl, rfl⟩

/-- A reference that fits is read as a reference. -/
theorem slotKind_of_isObject (hobject : tag.isObject) : tag.slotKind = .ok .object := by
  cases tag <;> first | rfl | cases hobject

/-- Only references are read as references. -/
theorem eq_reference_of_asSlot {value : Stored} (hslot : stored.asSlot .object = some value) :
    ∃ target, stored = .reference target ∧ value = .reference target := by
  cases stored with
  | primitive v => cases v <;> cases hslot
  | reference target => exact ⟨target, rfl, (Option.some.inj hslot).symm⟩

end Slots

section Frames

variable {α : Type} {a b : Agent} {h k : Handle} {thread : HeapId} {frame : Frame} {depth : Nat}
  {slot : Int} {kind : SlotKind} {stored value : Stored} {body : ThreadBody} {id : ObjectId}

/-! ### Where a thread has stopped -/

/-- The client knows a thread that is suspended, and the thread has a frame at a depth whose method
says which variables there are. -/
structure Agent.StopsAt (a : Agent) (id : ObjectId) (thread : HeapId) (depth : Nat) (frame : Frame)
    (entries : List LocalVariable) : Prop where
  named : a.tracker.target? a.vm id = some thread
  stopped : ∃ body, a.vm.threadAt? thread = some body ∧
    hasAny body.state ThreadState.suspended ∧ ¬ hasAny body.state ThreadState.terminated ∧
      body.frames[depth]? = some frame
  counted : depth < 0x80000000
  table : a.vm.localVariableTable frame.method = .ok entries

namespace Agent.StopsAt

variable {entries : List LocalVariable}

theorem live (h : a.StopsAt id thread depth frame entries) : a.vm.isLiveThread thread = true := by
  obtain ⟨body, hbody, -, hended, -⟩ := h.stopped
  simp [Vm.isLiveThread, hbody, hended]

theorem frameAt (h : a.StopsAt id thread depth frame entries) :
    a.vm.frameAt? thread depth = some frame := by
  obtain ⟨body, hbody, -, -, hframe⟩ := h.stopped
  exact Vm.frameAt?_eq_some.mpr ⟨body, hbody, hframe⟩

/-- Nothing but its kind can keep a variable of the frame from being read. -/
theorem variableIn (h : a.StopsAt id thread depth frame entries)
    (htarget : a.vm.target? k = some thread) :
    a.vm.variableIn k frame slot kind =
      match frame.locals.get? slot with
      | none => .error .invalidSlot
      | some stored =>
          match stored.asSlot kind with
          | none => .error .typeMismatch
          | some value => .ok value := by
  obtain ⟨body, hbody, hsuspended, -⟩ := h.stopped
  have htable := h.table
  have hgrant : a.vm.demand Capabilities.canAccessLocalVariables = .ok () := by
    simp only [Vm.localVariableTable, Vm.codeOf, bind, Except.bind] at htable
    cases hdemand : a.vm.demand Capabilities.canAccessLocalVariables with
    | ok => rfl
    | error cause =>
        rw [hdemand] at htable
        cases htable
  exact Vm.variableIn_suspended hgrant htarget hbody hsuspended

theorem opened (h : a.StopsAt id thread depth frame entries) (hs : HoldsSoundly a)
    (hb : a.vm.RefsBounded) (object : HeapId) :
    (a.opened object).StopsAt id thread depth frame entries :=
  ⟨(hs.target?_of_keeps (Vm.keeps_newRef hb .localRef object) id).trans h.named, h.stopped,
    h.counted, h.table⟩

/-- As long as the debugged world leaves it there, the thread stops where it did if it is still
suspended. -/
theorem of_keepsWorld (h : a.StopsAt id thread depth frame entries) (hworld : a.vm.KeepsWorld b.vm)
    (hnamed : b.tracker.target? b.vm id = some thread) (hsuspended : b.vm.isSuspended thread) :
    b.StopsAt id thread depth frame entries := by
  obtain ⟨body, hbody, -, hended, hframe⟩ := h.stopped
  obtain ⟨later, hlater, hframes, hsame⟩ := hworld.threads hbody
  rw [Vm.isSuspended, Vm.threadState, hlater] at hsuspended
  exact ⟨hnamed, ⟨later, hlater, hsuspended, hsame ▸ hended, hframes ▸ hframe⟩, h.counted,
    (hworld.localVariableTable frame.method).trans h.table⟩

theorem attached (h : a.StopsAt id thread depth frame entries) (caller : NativeThread) :
    (a.setVm (a.vm.attach caller).2).StopsAt id thread depth frame entries := by
  obtain ⟨body, hbody, hsuspended, -⟩ := h.stopped
  refine h.of_keepsWorld (.attach a.vm caller) ((tracker_target?_attach a caller id).trans h.named) ?_
  rw [Vm.isSuspended, Vm.threadState, show (a.setVm (a.vm.attach caller).2).vm.threadAt? thread = _
    from threadAt?_attach hbody caller]
  exact hsuspended

end Agent.StopsAt

/-! ### What is told of a variable -/

namespace Command.Frame

variable {tag : TypeTag} {signature : String} {entries : List LocalVariable} {entry : LocalVariable}

/-- Reads the variable in a slot of a frame of a thread, declared with the given signature. -/
def variableAt (thread : ObjectId) (frame : Frame) (slot : Int) (signature : String) :
    Command Value :=
  withThread thread fun thread => variableOf thread frame slot signature

theorem perform_variableOf (htag : declaredTag signature = .ok tag)
    (hkind : tag.slotKind = .ok kind) :
    (variableOf h frame slot signature).perform a =
      (slotOf h frame slot kind >>= wrap tag).perform a := by
  simp only [variableOf, perform_bind, Action.ofExcept, perform_inspect, htag, hkind, mapError_ok]

theorem has_variable (hc : a.vm.Closed) (htarget : a.vm.target? h = some thread)
    (hframe : a.vm.frameAt? thread depth = some frame)
    (hvalue : a.vm.variableIn h frame slot kind = .ok value) : a.vm.Has value.objects := by
  rw [← Vm.localVariable_eq htarget hframe] at hvalue
  exact hc.localVariable hvalue

/-- What a variable is read as is told. -/
theorem perform_variableOf_told (hshape : a.InShape) (htarget : a.vm.target? h = some thread)
    (hframe : a.vm.frameAt? thread depth = some frame) (htag : declaredTag signature = .ok tag)
    (hkind : tag.slotKind = .ok kind) (hvalue : a.vm.variableIn h frame slot kind = .ok value) :
    ((variableOf h frame slot signature).perform a).1 = (a.told tag value).mapError .refused := by
  rw [perform_variableOf htag hkind, perform_bind_of_ok (perform_slotOf hvalue)]
  exact perform_wrap hshape.closed hshape.refs tag (has_variable hshape.closed htarget hframe hvalue)

section Stopped

variable (hstops : a.StopsAt id thread depth frame entries)
include hstops

/-- A slot that no variable lives in is not read. -/
theorem perform_valuesOf_invalid (hnone : ∀ entry ∈ entries, ¬ isLive slot frame.location entry) :
    ((valuesOf id frame [slot]).perform a).1 = .error (.refused .invalidSlot) := by
  have htable : (a.opened thread).vm.localVariableTable frame.method = .ok entries := hstops.table
  have hfind : entries.find? (isLive slot frame.location) = none := List.find?_eq_none.mpr hnone
  rw [valuesOf, perform_withThread_live hstops.named hstops.live, perform_withLocal,
    perform_bind_of_ok (perform_ask_ok htable), Object.perform_mapM_singleton, hfind]
  rfl

/-- A slot is read as the variable is declared that lives in it. -/
theorem perform_valuesOf_live (hfind : entries.find? (isLive slot frame.location) = some entry) :
    (valuesOf id frame [slot]).perform a =
      ((fun value => [value]) <$> variableAt id frame slot entry.signature).perform a := by
  have htable : (a.opened thread).vm.localVariableTable frame.method = .ok entries := hstops.table
  rw [valuesOf, variableAt, perform_map, perform_withThread_live hstops.named hstops.live,
    perform_withThread_live hstops.named hstops.live, perform_withLocal,
    perform_bind_of_ok (perform_ask_ok htable), Object.perform_mapM_singleton, hfind]
  simp only [perform_map, perform_bind, perform_require_some, perform_withLocal]

variable (hshape : a.InShape) (hs : HoldsSoundly a)
include hshape hs

/-- What a variable of the kind that is declared is told as. -/
theorem perform_variableAt_told (htag : declaredTag signature = .ok tag)
    (hkind : tag.slotKind = .ok kind) (hstored : frame.locals.get? slot = some stored)
    (hvalue : stored.asSlot kind = some value) :
    ((variableAt id frame slot signature).perform a).1 = (a.told tag value).mapError .refused := by
  have htarget : (a.opened thread).vm.target? (a.vm.newLocal thread).1 = some thread :=
    Vm.target?_newRef a.vm .localRef thread
  have hopened := hshape.opened (hshape.live_of_target? hstops.named)
  have hstops' := hstops.opened hs hshape.refs thread
  have hread : (a.opened thread).vm.variableIn (a.vm.newLocal thread).1 frame slot kind =
      .ok value := by
    simp only [hstops'.variableIn htarget, hstored, hvalue]
  rw [variableAt, perform_withThread_live hstops.named hstops.live, perform_withLocal,
    perform_variableOf_told hopened htarget hstops'.frameAt htag hkind hread]
  rfl

/-- The identifier of an object that is read from a variable designates the object from then on,
unless it was in use for something else. -/
theorem designates_variableAt {object : HeapId} {tagged : TaggedObjectId}
    (htag : declaredTag signature = .ok tag) (hkind : tag.slotKind = .ok .object)
    (hstored : frame.locals.get? slot = some (.reference (some object)))
    (htold : a.identified object = .ok tagged) :
    ((variableAt id frame slot signature).perform a).2.Designates tagged.objectId
      ((a.tracker.target? a.vm tagged.objectId).getD object) := by
  let h := (a.vm.newLocal thread).1
  have htarget : (a.opened thread).vm.target? h = some thread :=
    Vm.target?_newRef a.vm .localRef thread
  have hopened := hshape.opened (hshape.live_of_target? hstops.named)
  have hkeeps : a.vm.Keeps (a.opened thread).vm := Vm.keeps_newRef hshape.refs .localRef thread
  have hstops' := hstops.opened hs hshape.refs thread
  have hread : (a.opened thread).vm.variableIn h frame slot .object =
      .ok (.reference (some object)) := by
    simp only [hstops'.variableIn htarget, hstored, Stored.asSlot]
  have hlive := has_variable hopened.closed htarget hstops'.frameAt hread
  have hwrap := designates_wrap hopened.toInOrder (hs.change hshape.toOrderly (.machine hkeeps))
    hopened.closed (Vm.has_cons.mp hlive).1 tag htold
  rw [variableAt, perform_withThread_live hstops.named hstops.live, perform_withLocal,
    perform_variableOf htag hkind, perform_bind_of_ok (perform_slotOf hread),
    ← hs.target?_of_keeps hkeeps]
  exact hwrap.setVm (Vm.keeps_dropLocals [h] _)

/-- A variable of the type that its value has is told as the value. -/
theorem conveys_variableAt (hgrant : a.vm.grants Capabilities.canTagObjects)
    (htag : declaredTag signature = .ok tag) (hstored : frame.locals.get? slot = some stored)
    (hfits : a.vm.Fits tag stored) :
    ∃ value, ((variableAt id frame slot signature).perform a).1 = .ok value ∧
      a.Conveys ((variableAt id frame slot signature).perform a).2 tag stored value := by
  cases stored with
  | primitive v =>
      obtain ⟨kind, kept, hkind, hkept, htold⟩ := told_asSlot hfits
      rw [perform_variableAt_told hstops hshape hs htag hkind hstored hkept, htold]
      exact ⟨_, rfl, rfl⟩
  | reference target =>
      have hobject : tag.isObject := by
        cases target with
        | none => exact hfits
        | some object => exact hfits.1
      have hkind := slotKind_of_isObject hobject
      rw [perform_variableAt_told hstops hshape hs htag hkind hstored rfl]
      obtain ⟨value, htold, hconveys⟩ := conveys_of_told hgrant hfits fun hreferent hidentified =>
        designates_variableAt hstops hshape hs htag hkind (hreferent ▸ hstored) hidentified
      exact ⟨value, congrArg (Except.mapError _) htold, hconveys⟩

/-- A variable that has been told is settled. -/
theorem variableAt_settles {told : Value} (htag : declaredTag signature = .ok tag)
    (hkind : tag.slotKind = .ok kind)
    (hperform : (variableAt id frame slot signature).perform a = (.ok told, b)) :
    ∃ stored value, frame.locals.get? slot = some stored ∧ stored.asSlot kind = some value ∧
      b.Settles tag value told := by
  let h := (a.vm.newLocal thread).1
  have htarget : (a.opened thread).vm.target? h = some thread :=
    Vm.target?_newRef a.vm .localRef thread
  have hopened := hshape.opened (hshape.live_of_target? hstops.named)
  have hstops' := hstops.opened hs hshape.refs thread
  rw [variableAt, perform_withThread_live hstops.named hstops.live, perform_withLocal] at hperform
  obtain ⟨houtcome, rfl⟩ := Prod.mk.inj hperform
  cases hread : (a.opened thread).vm.variableIn h frame slot kind with
  | error cause =>
      rw [perform_variableOf htag hkind, perform_bind, perform_slotOf_refused hread] at houtcome
      cases houtcome
  | ok value =>
      obtain ⟨stored, hstored, hvalue⟩ := Vm.slot_of_variableIn hread
      have hobjects := has_variable hopened.closed htarget hstops'.frameAt hread
      have hnear := hopened.giveOut hobjects
      have htold : (slotOf h frame slot kind >>= wrap tag).perform (a.opened thread) = (.ok told, _) :=
        Prod.ext ((congrArg Prod.fst (perform_variableOf htag hkind)).symm.trans houtcome) rfl
      have hsettled := reading_settles (perform_slotOf hread) hnear (Vm.behind?_giveOut _ value) htold
      refine ⟨stored, value, hstored, hvalue, ?_⟩
      have hdone := hopened.looks (looks_readLocal h depth slot signature)
      rw [perform_readLocal_eq htarget hstops'.frameAt, perform_variableOf htag hkind] at hdone
      rw [perform_variableOf htag hkind]
      exact hsettled.recalls (recalls_dropLocals hdone.toInOrder [h])

end Stopped

/-! ### The receiver -/

/-- A reference to an object is tracked in the same way at each type. -/
theorem trackObject_congr (hvalid : h.isNull = false) (declared declared' : TypeTag) :
    trackObject h declared = trackObject h declared' := by
  simp [trackObject, hvalid]

/-- A reference in a slot is told to be what the receiver would be, if no array is declared that is
null. -/
theorem perform_slot_or_receiver (hnull : frame.locals.get? 0 = some (.reference none) →
      tag ≠ .array) :
    ∃ (r : Except (Stop ProtocolError) TaggedObjectId) (b : Agent),
      (slotOf h frame 0 .object >>= wrap tag).perform a = (r.map .ofObject, b) ∧
        (slotOf h frame 0 .object >>= receiverBehind).perform a = (r.map some, b) := by
  cases hread : a.vm.variableIn h frame 0 .object with
  | error cause =>
      refine ⟨.error (.refused cause.toProtocol), a, ?_, ?_⟩ <;>
        rw [perform_bind, perform_slotOf_refused hread] <;> rfl
  | ok value =>
      obtain ⟨stored, hstored, hvalue⟩ := Vm.slot_of_variableIn hread
      obtain ⟨target, rfl, rfl⟩ := eq_reference_of_asSlot hvalue
      rw [perform_bind_of_ok (perform_slotOf hread), perform_bind_of_ok (perform_slotOf hread)]
      cases target with
      | none =>
          refine ⟨.ok ⟨.object, 0⟩, a, ?_, rfl⟩
          have htracked := trackObject_null (a := a) (h := .null) rfl tag
          rw [if_neg (hnull hstored)] at htracked
          show (wrap tag (.object .null)).perform a = _
          rw [wrap, perform_withLocal, perform_bind, htracked]
          rfl
      | some object =>
          let h := (a.vm.newLocal object).1
          have hvalid : h.isNull = false := Vm.isNull_newRef a.vm .localRef object
          let tracked := (trackObject h .object).perform (a.opened object)
          refine ⟨tracked.1, tracked.2.setVm (dropLocal tracked.2.vm h), ?_, ?_⟩
          · show (wrap tag (.object h)).perform (a.opened object) = _
            rw [wrap, trackObject_congr hvalid tag .object, perform_withLocal, bind_pure_comp,
              perform_map]
          · show (receiverBehind (.object h)).perform (a.opened object) = _
            rw [receiverBehind, perform_withLocal, bind_pure_comp, perform_map]

/-- In a method that has a receiver, the first slot is told to be what the receiver is. -/
theorem perform_values_or_receiver (hstops : a.StopsAt id thread depth frame entries)
    (hreceives : a.vm.HasReceiver frame)
    (hfind : entries.find? (isLive 0 frame.location) = some entry)
    (htag : declaredTag entry.signature = .ok tag) (hobject : tag.isObject)
    (hnull : frame.locals.get? 0 = some (.reference none) → tag ≠ .array) :
    ∃ (r : Except (Stop ProtocolError) TaggedObjectId) (b : Agent),
      (valuesOf id frame [0]).perform a = (r.map fun tagged => [.ofObject tagged], b) ∧
        (receiverOf id frame).perform a = (r.map some, b) := by
  let h := (a.vm.newLocal thread).1
  obtain ⟨modifiers, hmodifiers, hinstance⟩ := hreceives
  obtain ⟨r, b, hslot, hreceiver⟩ :=
    perform_slot_or_receiver (a := a.opened thread) (h := h) hnull
  have hmodifiers' : (a.opened thread).vm.methodModifiers frame.method = .ok modifiers := hmodifiers
  refine ⟨r, b.setVm (dropLocal b.vm h), ?_, ?_⟩
  · rw [perform_valuesOf_live hstops hfind, perform_map, variableAt,
      perform_withThread_live hstops.named hstops.live, perform_withLocal,
      perform_variableOf htag (slotKind_of_isObject hobject), hslot]
    cases r <;> rfl
  · rw [receiverOf, perform_withThread_live hstops.named hstops.live, perform_withLocal,
      perform_bind_of_ok (perform_ask_ok hmodifiers'), if_neg hinstance, hreceiver]

end Command.Frame

/-! ### What the client gets -/

/-- The variable is in the slot, and lives at the code index. -/
def LocalVariable.LivesIn (entry : LocalVariable) (slot : Int) (index : CodeIndex) : Prop :=
  entry.slot = slot ∧ entry.start ≤ index ∧ index < entry.start + entry.length

instance (entry : LocalVariable) (slot : Int) (index : CodeIndex) :
    Decidable (entry.LivesIn slot index) :=
  inferInstanceAs (Decidable (_ ∧ _ ∧ _))

/-- The entry is the first one of a table whose variable lives in a slot at a code index. -/
def LocalVariable.FirstIn (entry : LocalVariable) (entries : List LocalVariable) (slot : Int)
    (index : CodeIndex) : Prop :=
  ∃ before after, entries = before ++ entry :: after ∧ entry.LivesIn slot index ∧
    ∀ other ∈ before, ¬ other.LivesIn slot index

theorem isLive_iff {entry : LocalVariable} {index : CodeIndex} :
    Command.Frame.isLive slot index entry ↔ entry.LivesIn slot index :=
  decide_eq_true_iff

theorem LocalVariable.FirstIn.find?_eq {entry : LocalVariable} {entries : List LocalVariable}
    {index : CodeIndex} (h : entry.FirstIn entries slot index) :
    entries.find? (Command.Frame.isLive slot index) = some entry := by
  obtain ⟨before, after, rfl, hlives, hbefore⟩ := h
  refine List.find?_eq_some_iff_append.mpr ⟨isLive_iff.mpr hlives, before, after, rfl, ?_⟩
  intro other hother
  rw [Bool.not_eq_true', Bool.eq_false_iff]
  exact fun hlive => hbefore other hother (isLive_iff.mp hlive)

theorem injective_singleValue : Function.Injective fun value => Reply.values [value] :=
  fun _ _ h => List.singleton_inj.mp (Reply.values.inj h)

namespace Agent.StopsAt

variable {entries : List LocalVariable}

theorem serve_frameValues (hstops : a.StopsAt id thread depth frame entries) (h : a.Reachable)
    (hattach : a.vm.attachFails = false) (caller : NativeThread) (slots : List Int) :
    Agent.serve caller (.frameValues id depth slots) a =
      let told := (Command.Frame.valuesOf id frame slots).perform (a.setVm (a.vm.attach caller).2)
      ((told.1.map .values).mapError Stop.told, told.2) := by
  have hstops' := hstops.attached caller
  rw [Agent.serve_eq_map hattach (by simp) rfl,
    Command.Frame.perform_values_eq (h.attached hattach caller).inShape hstops'.named
      hstops'.frameAt hstops'.counted]

theorem serve_thisObject (hstops : a.StopsAt id thread depth frame entries) (h : a.Reachable)
    (hattach : a.vm.attachFails = false) (caller : NativeThread) :
    Agent.serve caller (.thisObject id depth) a =
      let told := (Command.Frame.receiverOf id frame).perform (a.setVm (a.vm.attach caller).2)
      ((told.1.map .receiver).mapError Stop.told, told.2) := by
  have hstops' := hstops.attached caller
  rw [Agent.serve_eq_map hattach (by simp) rfl,
    Command.Frame.perform_thisObject_eq (h.attached hattach caller).inShape hstops'.named
      hstops'.frameAt hstops'.counted]

section Client

variable (hstops : a.StopsAt id thread depth frame entries) (hreach : a.Reachable)
  (hattach : a.vm.attachFails = false) (caller : NativeThread) {entry : LocalVariable}
  {tag : TypeTag}
include hstops hreach hattach

/-- A slot that no variable lives in is refused. -/
theorem invalidSlot (hnone : ∀ entry ∈ entries, ¬ entry.LivesIn slot frame.location) :
    (Agent.serve caller (.frameValues id depth [slot]) a).1 = .error .invalidSlot := by
  have hinvalid := Command.Frame.perform_valuesOf_invalid (hstops.attached caller)
    fun entry hmem hlive => hnone entry hmem (isLive_iff.mp hlive)
  rw [hstops.serve_frameValues hreach hattach]
  dsimp only
  rw [hinvalid]
  rfl

/-- A slot is read as the first variable is declared that lives in it. -/
theorem declared (hfirst : entry.FirstIn entries slot frame.location) :
    Agent.serve caller (.frameValues id depth [slot]) a =
      answer caller ((fun value => .values [value]) <$>
        Command.Frame.variableAt id frame slot entry.signature) a := by
  rw [hstops.serve_frameValues hreach hattach, answer_of_attaching hattach, perform_map,
    Command.Frame.perform_valuesOf_live (hstops.attached caller) hfirst.find?_eq, perform_map]
  dsimp only
  cases ((Command.Frame.variableAt id frame slot entry.signature).perform
    (a.setVm (a.vm.attach caller).2)).1 <;> rfl

/-- A value of the kind that is declared is told as it is. -/
theorem conveyed (hfirst : entry.FirstIn entries slot frame.location)
    (htag : declaredTag entry.signature = .ok tag) (hstored : frame.locals.get? slot = some stored)
    (hfits : a.vm.Fits tag stored) :
    ∃ value, (Agent.serve caller (.frameValues id depth [slot]) a).1 = .ok (.values [value]) ∧
      a.Conveys (Agent.serve caller (.frameValues id depth [slot]) a).2 tag stored value := by
  have hnear := hreach.attached hattach caller
  have hstops' := hstops.attached caller
  obtain ⟨value, hvalue, hconveys⟩ := Command.Frame.conveys_variableAt hstops' hnear.inShape
    hnear.consistent.holds (hnear.grants_of_target? hstops'.named) htag hstored
    (hfits.attach caller)
  rw [hstops.declared hreach hattach caller hfirst, answer_of_attaching hattach, perform_map]
  dsimp only
  rw [hvalue]
  exact ⟨value, rfl, hconveys.of_attached hattach hfits⟩

/-- The receiver and the variable in the first slot. -/
theorem receiver (hreceives : a.vm.HasReceiver frame)
    (hfirst : entry.FirstIn entries 0 frame.location) (htag : declaredTag entry.signature = .ok tag)
    (hobject : tag.isObject)
    (hnull : frame.locals.get? 0 = some (.reference none) → tag ≠ .array) :
    ∃ r : Except ProtocolError TaggedObjectId,
      (Agent.serve caller (.frameValues id depth [0]) a).1 =
        r.map (fun tagged => .values [.ofObject tagged]) ∧
      (Agent.serve caller (.thisObject id depth) a).1 = r.map (fun tagged => .receiver (some tagged)) ∧
      (Agent.serve caller (.frameValues id depth [0]) a).2 =
        (Agent.serve caller (.thisObject id depth) a).2 := by
  obtain ⟨r, b, hvalues, hreceiver⟩ := Command.Frame.perform_values_or_receiver
    (hstops.attached caller) ((Vm.KeepsWorld.attach a.vm caller).hasReceiver hreceives)
    hfirst.find?_eq htag hobject hnull
  rw [hstops.serve_frameValues hreach hattach, hstops.serve_thisObject hreach hattach]
  dsimp only
  rw [hvalues, hreceiver]
  refine ⟨r.mapError Stop.told, ?_, ?_, rfl⟩ <;> cases r <;> rfl

/-- What has been told of a variable is told of it as long as no identifiers are given back. -/
theorem told_again (hfirst : entry.FirstIn entries slot frame.location)
    (htag : declaredTag entry.signature = .ok tag) (hkind : tag.slotKind = .ok kind) {value : Value}
    (htold : (Agent.serve caller (.frameValues id depth [slot]) a).1 = .ok (.values [value]))
    (hlater : (Agent.serve caller (.frameValues id depth [slot]) a).2.Later
      (fun op => !op.givesBack) b)
    (hstops' : b.StopsAt id thread depth frame entries) (hattach' : b.vm.attachFails = false)
    (caller' : NativeThread) :
    (Agent.serve caller' (.frameValues id depth [slot]) b).1 = .ok (.values [value]) := by
  have hnear := hreach.attached hattach caller
  have hafter := hreach.apply (.command caller (.frameValues id depth [slot])) Vm.has_nil
  have hlast := (hlater.reachable hafter).attached hattach' caller'
  have hstops'' := hstops'.attached caller'
  have hrecalls := (hlater.recalls hafter (by simp)).trans (.attach b caller')
  let x := Command.Frame.variableAt id frame slot entry.signature
  have hserve : Agent.serve caller (.frameValues id depth [slot]) a =
      let told := x.perform (a.setVm (a.vm.attach caller).2)
      ((told.1.map fun value => .values [value]).mapError Stop.told, told.2) := by
    rw [hstops.declared hreach hattach caller hfirst, answer_of_attaching hattach, perform_map]
  rw [hserve] at htold hrecalls
  have hread : (x.perform (a.setVm (a.vm.attach caller).2)).1 = .ok value :=
    (told_eq_ok_iff injective_singleValue).mp htold
  obtain ⟨stored, kept, hstored, hkept, hsettled⟩ :=
    Command.Frame.variableAt_settles (hstops.attached caller) hnear.inShape hnear.consistent.holds
      htag hkind (Prod.ext hread rfl)
  rw [hstops'.declared (hlater.reachable hafter) hattach' caller' hfirst,
    answer_of_attaching hattach', perform_map]
  refine (told_eq_ok_iff injective_singleValue).mpr ?_
  rw [Command.Frame.perform_variableAt_told hstops'' hlast.inShape hlast.consistent.holds htag hkind
    hstored hkept, (hsettled.recalls hrecalls).told]
  rfl

end Client

end Agent.StopsAt

/-- Variables of a frame of a suspended thread.  A slot that no variable lives in at the position of
the frame is refused, and any other is read as the first entry declares it whose variable lives
there.  If the stored value is of the declared kind, it is what the client gets, however the machine
keeps it.  In a method that is not static, reading the first slot as an object and asking for the
receiver come to the same, for good or ill, and do the same to the agent; and what one of them has
told, both tell as long as no identifiers are given back.  An array in the first slot is told alike
by both as well; of null, which is no object of any class, the tag is the declared one. -/
theorem frame_variables_as_declared {entries : List LocalVariable}
    (hstops : a.StopsAt id thread depth frame entries) (hreach : a.Reachable)
    (hattach : a.vm.attachFails = false) (caller : NativeThread) :
    let read (slot : Int) := Agent.serve caller (.frameValues id depth [slot]) a
    let receive := Agent.serve caller (.thisObject id depth) a
    (∀ slot,
      ((∀ entry ∈ entries, ¬ entry.LivesIn slot frame.location) →
        (read slot).1 = .error .invalidSlot) ∧
      ∀ entry : LocalVariable, entry.FirstIn entries slot frame.location →
        read slot = answer caller ((fun value => .values [value]) <$>
          Command.Frame.variableAt id frame slot entry.signature) a ∧
        ∀ tag stored, declaredTag entry.signature = .ok tag →
          frame.locals.get? slot = some stored → a.vm.Fits tag stored →
            ∃ value, (read slot).1 = .ok (.values [value]) ∧
              a.Conveys (read slot).2 tag stored value) ∧
    ∀ (entry : LocalVariable) tag, a.vm.HasReceiver frame → entry.FirstIn entries 0 frame.location →
      declaredTag entry.signature = .ok tag → tag.isObject →
      (frame.locals.get? 0 = some (.reference none) → tag ≠ .array) →
        (∃ r : Except ProtocolError TaggedObjectId,
          (read 0).1 = r.map (fun tagged => .values [.ofObject tagged]) ∧
          receive.1 = r.map (fun tagged => .receiver (some tagged)) ∧ (read 0).2 = receive.2) ∧
        ∀ tagged, (read 0).1 = .ok (.values [.ofObject tagged]) →
          ∀ b, (read 0).2.Later (fun op => !op.givesBack) b → b.vm.attachFails = false →
            b.StopsAt id thread depth frame entries → b.vm.HasReceiver frame → ∀ caller',
              (Agent.serve caller' (.frameValues id depth [0]) b).1 =
                .ok (.values [.ofObject tagged]) ∧
              (Agent.serve caller' (.thisObject id depth) b).1 = .ok (.receiver (some tagged)) := by
  refine ⟨fun slot => ⟨hstops.invalidSlot hreach hattach caller, fun entry hfirst =>
    ⟨hstops.declared hreach hattach caller hfirst, fun tag stored htag hstored hfits =>
      hstops.conveyed hreach hattach caller hfirst htag hstored hfits⟩⟩, ?_⟩
  intro entry tag hreceives hfirst htag hobject hnull
  refine ⟨hstops.receiver hreach hattach caller hreceives hfirst htag hobject hnull, ?_⟩
  intro tagged htold b hlater hattach' hstops' hreceives' caller'
  have hagain := hstops.told_again hreach hattach caller hfirst htag (slotKind_of_isObject hobject)
    htold hlater hstops' hattach' caller'
  have hafter := hreach.apply (.command caller (.frameValues id depth [0])) Vm.has_nil
  obtain ⟨r, hvalues, hreceiver, -⟩ := hstops'.receiver (hlater.reachable hafter) hattach' caller'
    hreceives' hfirst htag hobject hnull
  refine ⟨hagain, ?_⟩
  rw [hvalues] at hagain
  rw [hreceiver]
  cases r with
  | error cause => cases hagain
  | ok found =>
      obtain ⟨foundTag, foundId⟩ := found
      obtain ⟨toldTag, toldId⟩ := tagged
      cases hagain
      rfl

end Frames

/-- The second slot is used for a byte first, and then for a character. -/
def sharedSlots : List LocalVariable :=
  [⟨"this", "LMain;", 0, 10, 0⟩, ⟨"b", "B", 0, 4, 1⟩, ⟨"c", "C", 4, 6, 1⟩]

/-- A thread, known as object 1, that is suspended in a method of an object where the second slot
holds a character. -/
def midway : Agent :=
  (Agent.start Vm.fresh {}).run
    [.setup (.defineClass "LMain;"),
      .setup (.addMethod 9 { name := "run", signature := "()V", locals := some sharedSlots }),
      .setup (.newObject 9), .setup (.spawnThread "main"), .setup (.pushFrame 11 0x1000 5),
      .setup (.setLocal 11 0 0 (.reference (some 10))),
      .setup (.setLocal 11 0 1 (.primitive (.char 0xfffe))), .command (.client 0) .allThreads,
      .command (.client 0) (.suspendThread 1)]

/-- The character is told as it is, the receiver as object 3 by either command, and a slot beyond is
refused. -/
theorem midway_variables_told : midway.Reachable ∧ midway.vm.attachFails = false ∧
    (Agent.serve (.client 0) (.frameValues 1 0 [2]) midway).1 = .error .invalidSlot ∧
    (Agent.serve (.client 0) (.frameValues 1 0 [1]) midway).1 =
      .ok (.values [⟨.char, .char 0xfffe⟩]) ∧
    let receiver := Agent.serve (.client 0) (.frameValues 1 0 [0]) midway
    receiver.1 = .ok (.values [⟨.object, .object 3⟩]) ∧
    (Agent.serve (.client 1) (.thisObject 1 0) receiver.2).1 =
      .ok (.receiver (some ⟨.object, 3⟩)) := by
  have hreach : midway.Reachable := by
    apply Agent.Reachable.run (.start {})
    decide +kernel
  have hattach : midway.vm.attachFails = false := by decide +kernel
  have hstands : (midway.vm.frameAt? 11 0).map (fun frame =>
      (frame.method, frame.location, frame.locals.get? 0, frame.locals.get? 1)) =
        some (0x1000, 5, some (.reference (some 10)), some (.primitive (.char 0xfffe))) := by
    decide +kernel
  have hthread : (midway.vm.threadAt? 11).map (fun body =>
      (hasAny body.state ThreadState.suspended, hasAny body.state ThreadState.terminated)) =
        some (true, false) := by decide +kernel
  obtain ⟨frame, hframe, hshown⟩ := Option.map_eq_some_iff.mp hstands
  obtain ⟨body, hbody, hat⟩ := Vm.frameAt?_eq_some.mp hframe
  rw [hbody, Option.map_some] at hthread
  simp only [Option.some.injEq, Prod.mk.injEq] at hshown hthread
  obtain ⟨hmethod, hlocation, hreceiver, hstored⟩ := hshown
  have htable : midway.vm.localVariableTable frame.method = .ok sharedSlots := by
    rw [hmethod]
    decide +kernel
  have hstops : midway.StopsAt 1 11 0 frame sharedSlots :=
    { named := by decide +kernel
      stopped := ⟨body, hbody, hthread.1, by simp [hthread.2], hat⟩
      counted := by decide
      table := htable }
  have hreceives : midway.vm.HasReceiver frame :=
    ⟨Access.isPublic, by rw [hmethod]; decide +kernel, by decide⟩
  let reads : Op := .command (.client 0) (.frameValues 1 0 [0])
  let after := midway.apply reads
  have hworld : midway.vm.KeepsWorld after.vm := keepsWorld_apply (by rfl) midway
  have hstops' : after.StopsAt 1 11 0 frame sharedSlots :=
    hstops.of_keepsWorld hworld (by decide +kernel) (by decide +kernel)
  obtain ⟨hslots, hfirst⟩ := frame_variables_as_declared hstops hreach hattach (.client 0)
  have hchar : LocalVariable.FirstIn ⟨"c", "C", 4, 6, 1⟩ sharedSlots 1 frame.location :=
    ⟨[⟨"this", "LMain;", 0, 10, 0⟩, ⟨"b", "B", 0, 4, 1⟩], [], rfl, by
      rw [hlocation]; decide, by rw [hlocation]; decide⟩
  obtain ⟨value, htold, rfl⟩ := ((hslots 1).2 _ hchar).2 .char _ (by rfl) hstored (by rfl)
  have hthis : LocalVariable.FirstIn ⟨"this", "LMain;", 0, 10, 0⟩ sharedSlots 0 frame.location :=
    ⟨[], _, rfl, by rw [hlocation]; decide, fun _ hmem => by cases hmem⟩
  have hread : (Agent.serve (.client 0) (.frameValues 1 0 [0]) midway).1 =
      .ok (.values [⟨.object, .object 3⟩]) := by decide +kernel
  obtain ⟨-, hagain⟩ := hfirst _ .object hreceives hthis (by rfl) rfl (by simp)
  exact ⟨hreach, hattach, (hslots 2).1 (by rw [hlocation]; decide), htold, hread,
    (hagain ⟨.object, 3⟩ hread after .now (hworld.attachFails.trans hattach) hstops'
      (hworld.hasReceiver hreceives) (.client 1)).2⟩

end DebugAgent
