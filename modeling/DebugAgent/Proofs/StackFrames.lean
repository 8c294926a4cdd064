import DebugAgent.Proofs.Settled

/-!
# Frames of stacks

A frame is named by the thread that it belongs to and by its depth.  A command that names a frame
first looks for it, and then for the method that it is a frame of and for the variables that it keeps.
Here commands are given that have the frame at hand and do not look at the stack; naming a frame comes
to the same as having it, as long as it is there, whatever else is on the stack.
-/

namespace DebugAgent

open DebugAgent.Action Command Tracking Reading

/-! ### Frames at hand -/

namespace Vm

variable {vm : Vm} {h : Handle} {thread : HeapId} {frame : DebugAgent.Frame} {depth : Nat} {slot : Int}
  {kind : SlotKind} {stored value : Stored} {body : ThreadBody}

/-- The frame of a thread at a depth. -/
def frameAt? (vm : Vm) (thread : HeapId) (depth : Nat) : Option DebugAgent.Frame :=
  (vm.threadAt? thread).bind fun body => body.frames[depth]?

/-- The variable in a slot of a frame that is at hand, read as the given kind.  The thread has to be
suspended or to be running a callback. -/
def variableIn (vm : Vm) (thread : Handle) (frame : DebugAgent.Frame) (slot : Int)
    (kind : SlotKind) : Except JvmtiError Stored := do
  vm.demand Capabilities.canAccessLocalVariables
  let body ← vm.threadOf thread
  let inCallback := (vm.target? thread).any fun id => vm.inCallback.contains id
  if !hasAny body.state ThreadState.suspended && !inCallback then .error .threadNotSuspended
  else
    match frame.locals.get? slot with
    | none => .error .invalidSlot
    | some stored =>
        match stored.asSlot kind with
        | none => .error .typeMismatch
        | some value => .ok value

/-- The frame is one of a method that is not static. -/
def HasReceiver (vm : Vm) (frame : DebugAgent.Frame) : Prop :=
  ∃ modifiers, vm.methodModifiers frame.method = .ok modifiers ∧ ¬ hasAny modifiers Access.isStatic

theorem threadOf_eq (htarget : vm.target? h = some thread)
    (hbody : vm.threadAt? thread = some body) : vm.threadOf h = .ok body := by
  rw [threadOf, htarget, Option.bind_some, hbody]

theorem frameAt?_eq_some : vm.frameAt? thread depth = some frame ↔
    ∃ body, vm.threadAt? thread = some body ∧ body.frames[depth]? = some frame :=
  Option.bind_eq_some_iff

theorem frameLocation_eq (htarget : vm.target? h = some thread)
    (hframe : vm.frameAt? thread depth = some frame) :
    vm.frameLocation h depth = .ok (frame.method, frame.location) := by
  obtain ⟨body, hbody, hframe⟩ := frameAt?_eq_some.mp hframe
  have hdepth : ¬ (depth : Int) < 0 := Int.not_lt.mpr (Int.natCast_nonneg depth)
  simp [frameLocation, threadOf_eq htarget hbody, hdepth, hframe, bind, Except.bind]

/-- A variable of a frame that is named by its depth is one of the frame. -/
theorem localVariable_eq (htarget : vm.target? h = some thread)
    (hframe : vm.frameAt? thread depth = some frame) :
    vm.localVariable h depth = vm.variableIn h frame := by
  obtain ⟨body, hbody, hframe⟩ := frameAt?_eq_some.mp hframe
  have hdepth : ¬ (depth : Int) < 0 := Int.not_lt.mpr (Int.natCast_nonneg depth)
  funext slot kind
  rw [localVariable, variableIn, threadOf_eq htarget hbody]
  cases hstored : frame.locals.get? slot with
  | none => simp [hdepth, hframe, hstored, bind, Except.bind]
  | some stored =>
      cases hslot : stored.asSlot kind <;>
        simp [hdepth, hframe, hstored, hslot, bind, Except.bind]

/-- In a suspended thread it is only a matter of the kind whether a variable can be read. -/
theorem variableIn_suspended (hgrant : vm.demand Capabilities.canAccessLocalVariables = .ok ())
    (htarget : vm.target? h = some thread) (hbody : vm.threadAt? thread = some body)
    (hsuspended : hasAny body.state ThreadState.suspended) :
    vm.variableIn h frame slot kind =
      match frame.locals.get? slot with
      | none => .error .invalidSlot
      | some stored =>
          match stored.asSlot kind with
          | none => .error .typeMismatch
          | some value => .ok value := by
  simp [variableIn, hgrant, threadOf_eq htarget hbody, hsuspended, bind, Except.bind]

theorem slot_of_variableIn (hvalue : vm.variableIn h frame slot kind = .ok value) :
    ∃ stored, frame.locals.get? slot = some stored ∧ stored.asSlot kind = some value := by
  simp only [variableIn, bind, Except.bind] at hvalue
  split at hvalue
  · cases hvalue
  split at hvalue
  · cases hvalue
  split at hvalue
  · cases hvalue
  split at hvalue
  · cases hvalue
  rename_i stored hstored
  split at hvalue
  · cases hvalue
  rename_i read hslot
  cases hvalue
  exact ⟨stored, hstored, hslot⟩

theorem KeepsWorld.localVariableTable {vm' : Vm} (h : vm.KeepsWorld vm') (method : MethodId) :
    vm'.localVariableTable method = vm.localVariableTable method := by
  simp only [Vm.localVariableTable, codeOf, demand, methodOf, h.methods, grants_congr h.capabilities]

theorem KeepsWorld.frameAt? {vm' : Vm} (h : vm.KeepsWorld vm')
    (hframe : vm.frameAt? thread depth = some frame) : vm'.frameAt? thread depth = some frame := by
  obtain ⟨body, hbody, hframe⟩ := frameAt?_eq_some.mp hframe
  obtain ⟨later, hlater, hframes, -⟩ := h.threads hbody
  exact frameAt?_eq_some.mpr ⟨later, hlater, hframes ▸ hframe⟩

theorem KeepsWorld.hasReceiver {vm' : Vm} (h : vm.KeepsWorld vm') (hreceives : vm.HasReceiver frame) :
    vm'.HasReceiver frame := by
  rwa [HasReceiver, methodModifiers, methodOf, h.methods]

end Vm

namespace Command.Frame

/-- Gives out what a slot of a frame that is at hand is read as. -/
def slotOf (thread : Handle) (frame : Frame) (slot : Int) (kind : SlotKind) : Command RawValue := do
  let stored ← ask fun vm => vm.variableIn thread frame slot kind
  touch (Vm.giveOut stored)

/-- A variable of a frame that is at hand, declared with the given signature. -/
def variableOf (thread : Handle) (frame : Frame) (slot : Int) (signature : String) :
    Command Value := do
  let tag ← Action.ofExcept (declaredTag signature)
  let kind ← Action.ofExcept tag.slotKind
  let raw ← slotOf thread frame slot kind
  wrap tag raw

/-- The values of slots of a frame that is at hand. -/
def valuesOf (thread : ObjectId) (frame : Frame) (slots : List Int) : Command (List Value) :=
  withThread thread fun thread => do
    let entries ← ask fun vm => vm.localVariableTable frame.method
    slots.mapM fun slot => do
      let entry ← Action.require .invalidSlot (entries.find? (isLive slot frame.location))
      variableOf thread frame slot entry.signature

/-- What the client is told of a receiver that has been read. -/
def receiverBehind : RawValue → Command (Option TaggedObjectId)
  | .object h => withLocal h do return some (← trackObject h .object)
  | .primitive _ => Action.refuse .typeMismatch

/-- The receiver of the method of a frame that is at hand. -/
def receiverOf (thread : ObjectId) (frame : Frame) : Command (Option TaggedObjectId) :=
  withThread thread fun thread => do
    let modifiers ← ask fun vm => vm.methodModifiers frame.method
    if hasAny modifiers Access.isStatic then return none
    slotOf thread frame 0 .object >>= receiverBehind

end Command.Frame

section Frames

variable {α : Type} {a b : Agent} {h k : Handle} {thread : HeapId} {frame : Frame} {depth : Nat}
  {slot : Int} {kind : SlotKind} {stored value : Stored} {body : ThreadBody} {id : ObjectId}

namespace Command.Frame

theorem perform_slotOf (hvalue : a.vm.variableIn h frame slot kind = .ok value) :
    (slotOf h frame slot kind).perform a =
      (.ok (a.vm.giveOut value).1, a.setVm (a.vm.giveOut value).2) := by
  rw [slotOf, perform_bind_of_ok (perform_ask_ok hvalue)]
  rfl

theorem perform_slotOf_refused {cause : JvmtiError}
    (hvalue : a.vm.variableIn h frame slot kind = .error cause) :
    (slotOf h frame slot kind).perform a = (.error (.refused cause.toProtocol), a) := by
  simp [slotOf, perform_bind, ask, hvalue]

/-- What is read from a frame that is named by its depth is what the frame keeps. -/
theorem perform_getLocal_eq (htarget : a.vm.target? h = some thread)
    (hframe : a.vm.frameAt? thread depth = some frame) (slot : Int) (kind : SlotKind) :
    (call (Vm.getLocal h depth slot kind)).perform a = (slotOf h frame slot kind).perform a := by
  have hsame := congrFun (congrFun (Vm.localVariable_eq htarget hframe) slot) kind
  cases hvalue : a.vm.variableIn h frame slot kind with
  | error cause =>
      rw [perform_slotOf_refused hvalue]
      have hread : (Vm.getLocal h depth slot kind).perform a.vm = (.error (.refused cause), a.vm) := by
        simp [Vm.getLocal, perform_bind, hsame, hvalue]
      rw [perform_call_refused hread]
      rfl
  | ok value =>
      rw [perform_slotOf hvalue]
      refine perform_call_ok ?_
      simp [Vm.getLocal, perform_bind, hsame, hvalue]

theorem perform_readLocal_eq (htarget : a.vm.target? h = some thread)
    (hframe : a.vm.frameAt? thread depth = some frame) (slot : Int) (signature : String) :
    (readLocal h depth slot signature).perform a = (variableOf h frame slot signature).perform a := by
  rw [readLocal, variableOf, perform_bind, perform_bind]
  cases htag : declaredTag signature with
  | error cause => rfl
  | ok tag =>
      simp only [Action.ofExcept, perform_inspect, mapError_ok, perform_bind]
      cases hkind : tag.slotKind with
      | error cause => rfl
      | ok kind =>
          simp only [mapError_ok, perform_getLocal_eq htarget hframe]

theorem perform_value_eq (htarget : a.vm.target? h = some thread)
    (hframe : a.vm.frameAt? thread depth = some frame) (entries : List LocalVariable) (slot : Int) :
    (Frame.value h depth frame.location entries slot).perform a =
      (do
        let entry ← Action.require .invalidSlot (entries.find? (isLive slot frame.location))
        variableOf h frame slot entry.signature : Command Value).perform a := by
  rw [Frame.value, perform_bind, perform_bind]
  cases entries.find? (isLive slot frame.location) with
  | none => rfl
  | some entry => exact perform_readLocal_eq htarget hframe slot entry.signature

end Command.Frame

/-- Looking at the machine leaves references and frames where they are. -/
theorem stays_frame (h : Handle) (thread : HeapId) (depth : Nat) (frame : Frame) :
    Agent.Stays fun a => a.vm.target? h = some thread ∧ a.vm.frameAt? thread depth = some frame := by
  rintro _ x a hx hshape ⟨htarget, hframe⟩
  exact ⟨hx.target? hshape.toOrderly htarget, (hx.keepsWorld.perform a).frameAt? hframe⟩

/-- Commands that come to the same, as long as something is so that stays so, do when they are
carried out one after the other. -/
theorem perform_mapM_congr {ι : Type} {P : Agent → Prop} {f g : ι → Command α}
    (hlooks : ∀ i, Looks Control.Any (f i)) (hP : Agent.Stays P)
    (hsame : ∀ i a, P a → (f i).perform a = (g i).perform a) (hshape : a.InShape) (ha : P a)
    (is : List ι) : (is.mapM f).perform a = (is.mapM g).perform a := by
  induction is generalizing a with
  | nil => rfl
  | cons i is ih =>
      have hshape' := hshape.looks (hlooks i)
      have ha' := hP (hlooks i) hshape ha
      rw [List.mapM_cons, List.mapM_cons, perform_bind, perform_bind, ← hsame i a ha]
      cases hone : (f i).perform a with
      | mk outcome near =>
          rw [hone] at hshape' ha'
          cases outcome with
          | error stop => rfl
          | ok r =>
              dsimp only
              rw [perform_bind, perform_bind, ih hshape' ha']

/-- What is done with a thread depends on the reference to it that it is done with. -/
theorem perform_withThread_congr {x y : Handle → Command α} (hshape : a.InShape)
    (hnamed : a.tracker.target? a.vm id = some thread)
    (hsame : ∀ h, (a.opened thread).vm.target? h = some thread →
      (x h).perform (a.opened thread) = (y h).perform (a.opened thread)) :
    (withThread id x).perform a = (withThread id y).perform a := by
  cases hlive : a.vm.isLiveThread thread with
  | false =>
      rw [perform_withThread_ended hshape.refs hnamed hlive,
        perform_withThread_ended hshape.refs hnamed hlive]
  | true =>
      have htarget : (a.opened thread).vm.target? (a.vm.newLocal thread).1 = some thread :=
        Vm.target?_newRef a.vm .localRef thread
      rw [perform_withThread_live hnamed hlive, perform_withThread_live hnamed hlive,
        perform_withLocal, perform_withLocal, hsame _ htarget]

namespace Command.Frame

/-- A depth that the machine counts to. -/
theorem perform_depthOf (hdepth : depth < 0x80000000) :
    (Action.ofExcept (depthOf depth) : Command Int).perform a = (.ok ↑depth, a) := by
  rw [depthOf, if_pos hdepth]
  rfl

section Named

variable (hshape : a.InShape) (hnamed : a.tracker.target? a.vm id = some thread)
  (hframe : a.vm.frameAt? thread depth = some frame) (hdepth : depth < 0x80000000)
include hshape hnamed hframe hdepth

/-- Values are read from the very frame that is named. -/
theorem perform_values_eq (slots : List Int) :
    (values id depth slots).perform a = (valuesOf id frame slots).perform a := by
  refine perform_withThread_congr hshape hnamed fun h htarget => ?_
  have hopened : (a.opened thread).InShape := hshape.opened (hshape.live_of_target? hnamed)
  have hframe' : (a.opened thread).vm.frameAt? thread depth = some frame := hframe
  have hlocation : (ask fun vm => vm.frameLocation h depth).perform (a.opened thread) =
      (.ok (frame.method, frame.location), a.opened thread) :=
    perform_ask_ok (Vm.frameLocation_eq htarget hframe')
  rw [perform_bind_of_ok (perform_depthOf hdepth), perform_bind_of_ok hlocation]
  dsimp only
  rw [perform_bind, perform_bind]
  cases htable : (a.opened thread).vm.localVariableTable frame.method with
  | error cause => simp only [ask, perform_inspect, htable, mapError_error]
  | ok entries =>
      simp only [ask, perform_inspect, htable, mapError_ok]
      exact perform_mapM_congr (looks_value h depth frame.location entries)
        (stays_frame h thread depth frame)
        (fun slot b hb => perform_value_eq hb.1 hb.2 entries slot) hopened ⟨htarget, hframe'⟩ slots

/-- The receiver is that of the very frame that is named. -/
theorem perform_thisObject_eq :
    (thisObject id depth).perform a = (receiverOf id frame).perform a := by
  refine perform_withThread_congr hshape hnamed fun h htarget => ?_
  have hframe' : (a.opened thread).vm.frameAt? thread depth = some frame := hframe
  have hlocation : (ask fun vm => vm.frameLocation h depth).perform (a.opened thread) =
      (.ok (frame.method, frame.location), a.opened thread) :=
    perform_ask_ok (Vm.frameLocation_eq htarget hframe')
  rw [perform_bind_of_ok (perform_depthOf hdepth), perform_bind_of_ok hlocation]
  dsimp only
  rw [perform_bind, perform_bind]
  cases hmodifiers : (a.opened thread).vm.methodModifiers frame.method with
  | error cause => simp only [ask, perform_inspect, hmodifiers, mapError_error]
  | ok modifiers =>
      simp only [ask, perform_inspect, hmodifiers, mapError_ok]
      split
      · rfl
      · rw [perform_bind, perform_bind, perform_getLocal_eq htarget hframe']
        rfl

end Named

end Command.Frame

end Frames

end DebugAgent
