import DebugAgent.Proofs.StackFrames

/-!
# Lists of frames

The frames of a thread are numbered by their depth, whatever part of the stack is asked for, and the
number of a frame is what names it.  A part of the stack is checked against the number of frames
before anything is told of it.  The position of a frame is told by its method, and by the class that
declares it, which is an object that is recognised from then on; so once the whole stack has been
listed, every part of it that is asked for is the part of the list that it says, and the number of an
entry leads to the frame whose position the entry tells.
-/

namespace DebugAgent

open DebugAgent.Action Command Tracking
open Relation (ReflTransGen)

/-! ### Positions -/

section Positions

variable {a b : Agent} {h : Handle} {cls : HeapId} {method : MethodId} {index : CodeIndex}
  {location : Location}

/-- What the client is told of a position in code. -/
def Agent.located (a : Agent) (method : MethodId) (index : CodeIndex) :
    Except ProtocolError Location :=
  match a.vm.methods.get? method with
  | none => .error JvmtiError.invalidMethodId.toProtocol
  | some decl =>
      match a.vm.classAt? decl.cls with
      | none => .error JvmtiError.invalidClass.toProtocol
      | some body =>
          if a.vm.grants Capabilities.canTagObjects then
            .ok ⟨body.kind, a.idFor decl.cls, method, index.toNat⟩
          else .error JvmtiError.mustPossessCapability.toProtocol

/-- The client would be told this of the position, and the class in it is recognised. -/
structure Agent.Locates (a : Agent) (method : MethodId) (index : CodeIndex) (location : Location) :
    Prop where
  told : a.located method index = .ok location
  recognised : ∀ decl, a.vm.methods.get? method = some decl →
    a.Recognises decl.cls location.classId

theorem located_eq_ok : a.located method index = .ok location ↔
    ∃ decl body, a.vm.methods.get? method = some decl ∧ a.vm.classAt? decl.cls = some body ∧
      a.vm.grants Capabilities.canTagObjects ∧
        location = ⟨body.kind, a.idFor decl.cls, method, index.toNat⟩ := by
  rw [Agent.located]
  cases a.vm.methods.get? method with
  | none => simp
  | some decl =>
      cases hclass : a.vm.classAt? decl.cls with
      | none => simp [hclass]
      | some body =>
          by_cases hgrant : a.vm.grants Capabilities.canTagObjects
          · simp [hclass, hgrant, eq_comm]
          · simp [hclass, hgrant]

theorem Agent.Locates.methodId_eq (h : a.Locates method index location) :
    location.methodId = method := by
  obtain ⟨_, _, -, -, -, rfl⟩ := located_eq_ok.mp h.told
  rfl

theorem Agent.Locates.index_eq (h : a.Locates method index location) :
    location.index = index.toNat := by
  obtain ⟨_, _, -, -, -, rfl⟩ := located_eq_ok.mp h.told
  rfl

/-- Positions are never refused for their place. -/
theorem located_error {cause : ProtocolError} (h : a.located method index = .error cause) :
    cause.isBound = false := by
  rw [Agent.located] at h
  split at h
  · cases h
    rfl
  · split at h
    · cases h
      rfl
    · split at h
      · cases h
      · cases h
        rfl

/-- A position is told by the identifier by which the class that declares the method is recognised.
-/
theorem Agent.Locates.of_recognises {decl : MethodDecl} {body : ClassBody} {id : ObjectId}
    (hdecl : a.vm.methods.get? method = some decl) (hclass : a.vm.classAt? decl.cls = some body)
    (hgrant : a.vm.grants Capabilities.canTagObjects) (hknown : a.Recognises decl.cls id) :
    a.Locates method index ⟨body.kind, id, method, index.toNat⟩ := by
  refine ⟨located_eq_ok.mpr ⟨decl, body, hdecl, hclass, hgrant, by rw [hknown.idFor]⟩, ?_⟩
  intro other hother
  cases hdecl.symm.trans hother
  exact hknown

/-- What is told of a position does not change as long as the class in it is recognised and the
debugged world stays as it is. -/
theorem Agent.Locates.recalls (hlocates : a.Locates method index location) (hrecalls : Recalls a b)
    (hworld : a.vm.KeepsWorld b.vm) : b.Locates method index location := by
  obtain ⟨decl, body, hdecl, hclass, hgrant, rfl⟩ := located_eq_ok.mp hlocates.told
  have hknown := hlocates.recognised decl hdecl
  exact .of_recognises (by rw [hworld.methods, hdecl]) (by rw [hworld.classes, hclass])
    ((Vm.grants_congr hworld.capabilities _).trans hgrant) (hrecalls.recognises hknown)

/-- Telling of a class, in full. -/
theorem perform_trackClass (htarget : a.vm.target? h = some cls) (hlive : cls < a.vm.heap.size) :
    (trackClass h).perform a =
      match a.vm.classAt? cls with
      | none => (.error (.refused JvmtiError.invalidClass.toProtocol), a)
      | some body =>
          if a.vm.grants Capabilities.canTagObjects then
            (.ok ⟨body.kind, a.idFor cls⟩, a.handingOut cls)
          else (.error (.refused JvmtiError.mustPossessCapability.toProtocol), a) := by
  have hvalid : (requireRef h .invalidClass).perform a = (.ok (), a) := by
    rw [requireRef, Vm.isNull_eq_false_of_target htarget]
    rfl
  rw [trackClass, perform_bind_of_ok hvalid]
  cases hclass : a.vm.classAt? cls with
  | none => simp [perform_bind, ask, Vm.isArrayClass, Vm.classOf, htarget, hclass, Except.map]
  | some body =>
      have harray : a.vm.isArrayClass h = .ok body.isArray := by
        simp [Vm.isArrayClass, Vm.classOf, htarget, hclass, Except.map]
      have hinterface : a.vm.isInterface h = .ok body.isInterface := by
        simp [Vm.isInterface, Vm.classOf, htarget, hclass, Except.map]
      rw [perform_bind_of_ok (perform_ask_ok harray), perform_bind_of_ok (perform_ask_ok hinterface)]
      by_cases hgrant : a.vm.grants Capabilities.canTagObjects
      · rw [perform_bind_of_ok (perform_trackNew hgrant htarget hlive)]
        simp [hgrant, ClassBody.kind]
      · simp [perform_trackNew_denied hgrant htarget, hgrant, Except.map]

/-- A position in a class that is at hand is told for good. -/
theorem locationIn_settles (hshape : a.InShape) {decl : MethodDecl}
    (htarget : a.vm.target? h = some decl.cls) (hdecl : a.vm.methods.get? method = some decl)
    (hperform : (Positions.locationIn h method index).perform a = (.ok location, b)) :
    b.Locates method index location := by
  have hlive := hshape.closed.target? htarget
  have hworld := (@Positions.looks_locationIn Control.Any h method index).keepsWorld.perform a
  obtain ⟨type, near, htrack, hlast⟩ := perform_bind_ok hperform
  cases hlast
  rw [hperform] at hworld
  rw [perform_trackClass htarget hlive] at htrack
  cases hclass : a.vm.classAt? decl.cls with
  | none =>
      rw [hclass] at htrack
      cases htrack
  | some body =>
      simp only [hclass] at htrack
      split at htrack
      · rename_i hgrant
        cases htrack
        exact .of_recognises (by rw [hworld.methods, hdecl]) (by rw [hworld.classes, hclass])
          ((Vm.grants_congr hworld.capabilities _).trans hgrant)
          (recognises_handingOut hshape.ids hlive)
      · cases htrack

theorem perform_locate (hc : a.vm.Closed) (method : MethodId) (index : CodeIndex) :
    ((Positions.locate method index).perform a).1 = (a.located method index).mapError .refused := by
  cases hdecl : a.vm.methods.get? method with
  | none =>
      rw [Positions.locate, perform_withDeclaringClass_unknown hdecl, Agent.located, hdecl]
      rfl
  | some decl =>
      have hopened : (a.opened decl.cls).vm.target? (a.vm.newLocal decl.cls).1 = some decl.cls :=
        Vm.target?_newRef a.vm .localRef decl.cls
      have htrack := perform_trackClass hopened (hc.methods hdecl)
      have hfound : a.located method index =
          match (a.opened decl.cls).vm.classAt? decl.cls with
          | none => .error JvmtiError.invalidClass.toProtocol
          | some body =>
              if (a.opened decl.cls).vm.grants Capabilities.canTagObjects then
                .ok ⟨body.kind, (a.opened decl.cls).idFor decl.cls, method, index.toNat⟩
              else .error JvmtiError.mustPossessCapability.toProtocol := by
        rw [Agent.located, hdecl]
        rfl
      rw [Positions.locate, perform_withDeclaringClass hdecl, perform_withLocal,
        Positions.locationIn, perform_bind, htrack, hfound]
      cases (a.opened decl.cls).vm.classAt? decl.cls with
      | none => rfl
      | some body =>
          by_cases hgrant : (a.opened decl.cls).vm.grants Capabilities.canTagObjects
          · simp only [hgrant, if_true]
            rfl
          · simp only [hgrant]
            rfl

/-- A position that has been told is told for good. -/
theorem locate_settles (hshape : a.InShape)
    (hperform : (Positions.locate method index).perform a = (.ok location, b)) :
    b.Locates method index location := by
  cases hdecl : a.vm.methods.get? method with
  | none =>
      rw [Positions.locate, perform_withDeclaringClass_unknown hdecl] at hperform
      cases hperform
  | some decl =>
      have hopened := hshape.opened (hshape.closed.methods hdecl)
      have htarget : (a.opened decl.cls).vm.target? (a.vm.newLocal decl.cls).1 = some decl.cls :=
        Vm.target?_newRef a.vm .localRef decl.cls
      have hlooks := @Positions.looks_locationIn Control.Any (a.vm.newLocal decl.cls).1 method index
      have hnear := hopened.looks hlooks
      rw [Positions.locate, perform_withDeclaringClass hdecl, perform_withLocal] at hperform
      generalize hfirst : (Positions.locationIn (a.vm.newLocal decl.cls).1 method index).perform
        (a.opened decl.cls) = told at hperform hnear
      obtain ⟨outcome, near⟩ := told
      cases hperform
      have hdropped := Vm.glance_dropLocal near.vm (a.vm.newLocal decl.cls).1
      exact (locationIn_settles hopened htarget hdecl hfirst).recalls
        (.glances hnear.toInOrder hdropped) (keepsWorld_of_glances hdropped)

end Positions

/-! ### Entries -/

namespace Command.Thread

/-- A frame is told by its depth and its position. -/
def infoOf (entry : Frame × Nat) : Command FrameInfo :=
  return ⟨entry.2, ← Positions.locate entry.1.method entry.1.location⟩

/-- Tells a part of a stack that is at hand. -/
def framesOf (stack : List Frame) (start length : Int) : Command (List FrameInfo) := do
  Action.guard (0 ≤ start ∧ start ≤ stack.length) .invalidIndex
  let length ← Action.ofExcept (runLength (stack.length - start) length)
  ((stack.zipIdx.drop start.toNat).take length.toNat).mapM infoOf

end Command.Thread

/-- The client would be told this of a frame with its depth, and the class in it is recognised. -/
structure Agent.Lists (a : Agent) (entry : Frame × Nat) (info : FrameInfo) : Prop where
  depth : info.frameId = entry.2
  position : a.Locates entry.1.method entry.1.location info.location

section Entries

variable {a b : Agent} {id : ObjectId} {thread : HeapId} {body : ThreadBody} {entry : Frame × Nat}
  {info : FrameInfo} {infos : List FrameInfo} {stack : List Frame} {start length : Int}
  {cause : ProtocolError}

theorem Agent.Lists.recalls (hlists : a.Lists entry info) (hrecalls : Recalls a b)
    (hworld : a.vm.KeepsWorld b.vm) : b.Lists entry info :=
  ⟨hlists.depth, hlists.position.recalls hrecalls hworld⟩

theorem stays_lists (entry : Frame × Nat) (info : FrameInfo) :
    Agent.Stays fun a => a.Lists entry info :=
  fun hx hshape h => h.recalls (.looks hshape.toInOrder hx) (hx.keepsWorld.perform _)

theorem Agent.Lists.glances (hlists : a.Lists entry info) (ho : InOrder a) {vm : Vm}
    (h : ReflTransGen Vm.Glance a.vm vm) : (a.setVm vm).Lists entry info :=
  hlists.recalls (.glances ho h) (keepsWorld_of_glances h)

namespace Command.Thread

theorem looks_infoOf (entry : Frame × Nat) : Looks Control.Any (infoOf entry) :=
  .bind (Positions.looks_locate _ _) fun _ => .pure _

theorem infoOf_settles (hshape : a.InShape) (hperform : (infoOf entry).perform a = (.ok info, b)) :
    b.Lists entry info := by
  obtain ⟨location, near, hlocation, hlast⟩ := perform_bind_ok hperform
  cases hlast
  exact ⟨rfl, locate_settles hshape hlocation⟩

theorem infoOf_again (hshape : a.InShape) (hlists : a.Lists entry info) :
    ((infoOf entry).perform a).1 = .ok info := by
  obtain ⟨frameId, location⟩ := info
  obtain ⟨rfl, hposition⟩ := hlists
  have hlocate := perform_locate hshape.closed entry.1.method entry.1.location
  rw [hposition.told] at hlocate
  rw [infoOf, bind_pure_comp, perform_map, hlocate]
  rfl

theorem infoOf_refused (hshape : a.InShape)
    (hperform : ((infoOf entry).perform a).1 = .error (.refused cause)) : cause.isBound = false := by
  have hlocate := perform_locate hshape.closed entry.1.method entry.1.location
  rw [infoOf, bind_pure_comp, perform_map, hlocate] at hperform
  cases htold : a.located entry.1.method entry.1.location with
  | error found =>
      rw [htold] at hperform
      cases hperform
      exact located_error htold
  | ok location =>
      rw [htold] at hperform
      cases hperform

/-! ### Parts of a stack -/

/-- The part of a list that is asked for, `-1` standing for all that is left. -/
def partOf {α : Type} (entries : List α) (start length : Int) : List α :=
  if length = -1 then entries.drop start.toNat else (entries.drop start.toNat).take length.toNat

/-- The depths of a part of a stack go on from where the part starts. -/
theorem zipIdx_part (stack : List Frame) (start length : Nat) :
    (((stack.drop start).take length).map fun frame => (frame.method, frame.location)).zipIdx.map
        (fun entry => (entry.1.1, entry.1.2, start + entry.2)) =
      ((stack.zipIdx.drop start).take length).map
        fun entry => (entry.1.method, entry.1.location, entry.2) := by
  apply List.ext_getElem <;> simp

/-- Entries numbered from the start of a part are told like entries numbered by depth. -/
theorem mapM_part (stack : List Frame) (start length : Nat) :
    ((((stack.drop start).take length).map fun frame => (frame.method, frame.location)).zipIdx.mapM
      fun ((method, index), offset) =>
        return ⟨start + offset, ← Positions.locate method index⟩ : Command (List FrameInfo)) =
      ((stack.zipIdx.drop start).take length).mapM infoOf := by
  let tell (entry : MethodId × CodeIndex × Nat) : Command FrameInfo :=
    return ⟨entry.2.2, ← Positions.locate entry.1 entry.2.1⟩
  have hpart := congrArg (List.mapM tell) (zipIdx_part stack start length)
  rw [List.mapM_map, List.mapM_map] at hpart
  exact hpart

theorem runLength_eq {left : Int} (hleft : 0 ≤ left) (length : Int) : runLength left length =
    if length < -1 ∨ left < length then .error .invalidLength
    else .ok (if length = -1 then left else length) := by
  by_cases hrest : length = -1
  · rw [runLength, if_pos hrest, if_neg (by omega), if_pos hrest]
  · rw [runLength, if_neg hrest, if_neg hrest]
    have hnegative : length < 0 ∨ left < length ↔ length < -1 ∨ left < length := by omega
    simp only [hnegative]

theorem bounds_of_runLength {left count : Int} (hleft : 0 ≤ left)
    (hcount : runLength left length = .ok count) : 0 ≤ count ∧ count ≤ left := by
  rw [runLength_eq hleft] at hcount
  split at hcount
  · cases hcount
  · have hsame := Except.ok.inj hcount
    split at hsame <;> omega

/-- What is told of a part of a stack that is named is what is told of the stack. -/
theorem perform_frames (hnamed : a.tracker.target? a.vm id = some thread)
    (hbody : a.vm.threadAt? thread = some body)
    (hended : ¬ hasAny body.state ThreadState.terminated) (start length : Int) :
    (frames id start length).perform a =
      (withLocal (a.vm.newLocal thread).1 (framesOf body.frames start length)).perform
        (a.opened thread) := by
  have hlive : a.vm.isLiveThread thread = true := by simp [Vm.isLiveThread, hbody, hended]
  have htarget : (a.opened thread).vm.target? (a.vm.newLocal thread).1 = some thread :=
    Vm.target?_newRef a.vm .localRef thread
  have hbody' : (a.opened thread).vm.threadAt? thread = some body := hbody
  have hcount : (a.opened thread).vm.frameCount (a.vm.newLocal thread).1 =
      .ok ↑body.frames.length := by
    simp [Vm.frameCount, Vm.threadOf_eq htarget hbody', hended, bind, Except.bind]
  rw [frames, perform_withThread_live hnamed hlive, perform_withLocal, perform_withLocal,
    perform_bind_of_ok (perform_ask_ok hcount), framesOf]
  by_cases hstart : 0 ≤ start ∧ start ≤ body.frames.length
  · simp only [hstart, and_self, decide_true, perform_bind, perform_guard_true]
    cases hlength : runLength (body.frames.length - start) length with
    | error cause => rfl
    | ok count =>
        obtain ⟨hpositive, -⟩ := bounds_of_runLength (by omega) hlength
        have htrace : (a.opened thread).vm.stackTrace (a.vm.newLocal thread).1 start count = .ok
            (((body.frames.drop start.toNat).take count.toNat).map fun frame =>
              (frame.method, frame.location)) := by
          rw [Vm.stackTrace, Vm.threadOf_eq htarget hbody']
          exact if_neg (by omega)
        simp only [Action.ofExcept, perform_inspect, mapError_ok, ask, htrace]
        rw [mapM_part]
  · simp only [hstart, decide_false, perform_bind, perform_guard_false]

/-- A part of a stack that lies in it is told entry by entry, and others are refused before that. -/
theorem perform_framesOf (stack : List Frame) (start length : Int) (a : Agent) :
    (framesOf stack start length).perform a =
      if start < 0 ∨ stack.length < start then (.error (.refused .invalidIndex), a)
      else if length < -1 ∨ stack.length - start < length then
        (.error (.refused .invalidLength), a)
      else ((partOf stack.zipIdx start length).mapM infoOf).perform a := by
  rw [framesOf, perform_bind]
  by_cases hstart : start < 0 ∨ stack.length < start
  · have hout : ¬ (0 ≤ start ∧ start ≤ stack.length) := by omega
    simp only [hout, decide_false, perform_guard_false, if_pos hstart]
  · have hin : 0 ≤ start ∧ start ≤ stack.length := by omega
    simp only [hin, and_self, decide_true, perform_guard_true, if_neg hstart, perform_bind,
      Action.ofExcept, perform_inspect]
    rw [runLength_eq (by omega)]
    by_cases hlength : length < -1 ∨ stack.length - start < length
    · simp only [if_pos hlength, mapError_error]
    · simp only [if_neg hlength, mapError_ok, partOf]
      split
      · rw [List.take_of_length_le]
        rw [List.length_drop, List.length_zipIdx]
        omega
      · rfl

section Known

variable (hshape : a.InShape) (hnamed : a.tracker.target? a.vm id = some thread)
  (hbody : a.vm.threadAt? thread = some body)
  (hended : ¬ hasAny body.state ThreadState.terminated)
include hshape hnamed hbody hended

/-- A part of the stack is refused for its place if it does not lie in the stack, and never else. -/
theorem frames_bounds (start length : Int) :
    (((frames id start length).perform a).1 = .error (.refused .invalidIndex) ↔
      start < 0 ∨ body.frames.length < start) ∧
    (¬ (start < 0 ∨ body.frames.length < start) →
      (((frames id start length).perform a).1 = .error (.refused .invalidLength) ↔
        length < -1 ∨ body.frames.length - start < length)) := by
  have hopened := hshape.opened (hshape.live_of_target? hnamed)
  have hrefused : ∀ cause : ProtocolError, cause.isBound = true →
      (((partOf body.frames.zipIdx start length).mapM infoOf).perform (a.opened thread)).1 ≠
        .error (.refused cause) := by
    intro cause hbound hfails
    have hnone := mapM_refused (P := fun _ => True) (Q := fun cause => cause.isBound = false)
      looks_infoOf (fun _ _ _ => trivial) (fun _ _ _ _ hnear _ => infoOf_refused hnear) hopened
      trivial hfails
    rw [hbound] at hnone
    cases hnone
  rw [perform_frames hnamed hbody hended, perform_withLocal, perform_framesOf]
  dsimp only
  split
  · rename_i hstart
    simp [hstart]
  · rename_i hstart
    split
    · rename_i hlength
      simp [hstart, hlength]
    · rename_i hlength
      simp [hstart, hlength, hrefused .invalidIndex rfl, hrefused .invalidLength rfl]

/-- The frames that have been told are told for good. -/
theorem frames_settles (hperform : (frames id start length).perform a = (.ok infos, b)) :
    List.Forall₂ b.Lists (partOf body.frames.zipIdx start length) infos := by
  have hopened := hshape.opened (hshape.live_of_target? hnamed)
  have hlooks := looks_mapM looks_infoOf (partOf body.frames.zipIdx start length)
  rw [perform_frames hnamed hbody hended, perform_withLocal, perform_framesOf] at hperform
  split at hperform
  · cases hperform
  · split at hperform
    · cases hperform
    · obtain ⟨houtcome, rfl⟩ := Prod.mk.inj hperform
      have hlists := mapM_settles (P := fun _ => True) (S := fun entry b info => b.Lists entry info)
        looks_infoOf (fun _ _ _ => trivial) stays_lists
        (fun _ _ _ _ _ hnear _ hone => infoOf_settles hnear hone) hopened trivial
        (Prod.ext houtcome rfl)
      exact hlists.imp fun _ _ hone =>
        hone.glances (hopened.looks hlooks).toInOrder (Vm.glance_dropLocal _ _)

/-- Where the frames have been told, a part of the stack is told as the part that it is. -/
theorem frames_again (hlists : List.Forall₂ a.Lists body.frames.zipIdx infos)
    (hstart : ¬ (start < 0 ∨ body.frames.length < start))
    (hlength : ¬ (length < -1 ∨ body.frames.length - start < length)) :
    ((frames id start length).perform a).1 = .ok (partOf infos start length) := by
  have hopened := hshape.opened (hshape.live_of_target? hnamed)
  have hpart : List.Forall₂ a.Lists (partOf body.frames.zipIdx start length)
      (partOf infos start length) := by
    rw [partOf, partOf]
    split
    · exact List.forall₂_drop _ hlists
    · exact List.forall₂_take _ (List.forall₂_drop _ hlists)
  rw [perform_frames hnamed hbody hended, perform_withLocal, perform_framesOf, if_neg hstart,
    if_neg hlength]
  exact mapM_again (P := fun _ => True) (S := fun entry b info => b.Lists entry info)
    looks_infoOf (fun _ _ _ => trivial) stays_lists
    (fun _ _ _ _ hnear _ hone => infoOf_again hnear hone) hopened trivial
    (hpart.imp fun _ _ hone => hone.glances hshape.toInOrder (.single (.openRef thread)))

end Known

end Command.Thread

/-! ### What the client gets -/

/-- The client knows a thread that has not ended, and has been told its stack as these frames. -/
structure Agent.HasListed (a : Agent) (id : ObjectId) (thread : HeapId) (stack : List Frame)
    (infos : List FrameInfo) : Prop where
  reachable : a.Reachable
  attaches : a.vm.attachFails = false
  named : a.tracker.target? a.vm id = some thread
  stands : ∃ body, a.vm.threadAt? thread = some body ∧
    ¬ hasAny body.state ThreadState.terminated ∧ body.frames = stack
  listed : List.Forall₂ a.Lists stack.zipIdx infos

namespace Agent.HasListed

variable {depth : Nat}

theorem length_eq (h : a.HasListed id thread stack infos) : infos.length = stack.length := by
  rw [← h.listed.length_eq, List.length_zipIdx]

/-- What has been told of a stack is so as long as no identifiers are given back and the debugged
world stays as it is. -/
theorem recalls (h : a.HasListed id thread stack infos) (hb : b.Reachable)
    (hrecalls : Recalls a b) (hworld : a.vm.KeepsWorld b.vm) :
    b.HasListed id thread stack infos := by
  obtain ⟨body, hbody, hended, rfl⟩ := h.stands
  obtain ⟨later, hlater, hframes, hsame⟩ := hworld.threads hbody
  exact
    { reachable := hb
      attaches := hworld.attachFails.trans h.attaches
      named := hrecalls.target? h.reachable.consistent.holds hb.consistent.holds h.named
      stands := ⟨later, hlater, hsame ▸ hended, hframes⟩
      listed := h.listed.imp fun _ _ hone => hone.recalls hrecalls hworld }

theorem later (h : a.HasListed id thread stack infos)
    (hlater : a.Later (fun op => !op.givesBack && !op.isWorldly) b) :
    b.HasListed id thread stack infos :=
  h.recalls (hlater.reachable h.reachable) (hlater.recalls h.reachable (by simp +contextual))
    (hlater.keepsWorld (by simp +contextual))

theorem attached (h : a.HasListed id thread stack infos) (caller : NativeThread) :
    (a.setVm (a.vm.attach caller).2).HasListed id thread stack infos :=
  h.recalls (h.reachable.attached h.attaches caller) (.attach a caller) (.attach a.vm caller)

/-- A part of the stack is told as the part of the list that it is. -/
theorem part (h : a.HasListed id thread stack infos) (caller : NativeThread)
    (hstart : ¬ (start < 0 ∨ stack.length < start))
    (hlength : ¬ (length < -1 ∨ stack.length - start < length)) :
    (Agent.serve caller (.frames id start length) a).1 =
      .ok (.frames (Command.Thread.partOf infos start length)) := by
  have hnear := h.attached caller
  obtain ⟨body, hbody, hended, rfl⟩ := hnear.stands
  have hread := Command.Thread.frames_again hnear.reachable.inShape hnear.named hbody hended
    hnear.listed hstart hlength
  rw [Agent.serve_eq_map h.attaches (by simp) rfl]
  exact (told_eq_ok_iff fun _ _ => Reply.frames.inj).mpr hread

/-- An entry tells its depth, and the position of the frame at this depth. -/
theorem told (h : a.HasListed id thread stack infos) (hinfo : infos[depth]? = some info) :
    info.frameId = depth ∧ ∃ frame, stack[depth]? = some frame ∧
      a.Locates frame.method frame.location info.location := by
  obtain ⟨hlt, rfl⟩ := List.getElem?_eq_some_iff.mp hinfo
  have hlt' : depth < stack.length := h.length_eq ▸ hlt
  have hlists := (List.forall₂_iff_get.mp h.listed).2 depth
    (by rwa [List.length_zipIdx]) hlt
  simp only [List.get_eq_getElem, List.getElem_zipIdx, Nat.zero_add] at hlists
  exact ⟨hlists.depth, stack[depth], List.getElem?_eq_getElem hlt', hlists.position⟩

/-- A frame that is named by its number is the one at this depth. -/
theorem frame (h : a.HasListed id thread stack infos) {frame : Frame}
    (hframe : stack[depth]? = some frame) (hdepth : depth < 0x80000000) (caller : NativeThread)
    (slots : List Int) :
    Agent.serve caller (.frameValues id depth slots) a =
        answer caller (.values <$> Command.Frame.valuesOf id frame slots) a ∧
      Agent.serve caller (.thisObject id depth) a =
        answer caller (.receiver <$> Command.Frame.receiverOf id frame) a := by
  have hnear := h.attached caller
  obtain ⟨body, hbody, -, rfl⟩ := hnear.stands
  have hat : (a.setVm (a.vm.attach caller).2).vm.frameAt? thread depth = some frame :=
    Vm.frameAt?_eq_some.mpr ⟨body, hbody, hframe⟩
  have hshape := hnear.reachable.inShape
  constructor
  · rw [Agent.serve_eq_map h.attaches (by simp) rfl, answer_of_attaching h.attaches, perform_map,
      Command.Frame.perform_values_eq hshape hnear.named hat hdepth]
  · rw [Agent.serve_eq_map h.attaches (by simp) rfl, answer_of_attaching h.attaches, perform_map,
      Command.Frame.perform_thisObject_eq hshape hnear.named hat hdepth]

end Agent.HasListed

/-- A stack that has been listed as a whole has been listed. -/
theorem hasListed_of_whole (h : a.Reachable) (hattach : a.vm.attachFails = false)
    (hnamed : a.tracker.target? a.vm id = some thread) (hbody : a.vm.threadAt? thread = some body)
    (hended : ¬ hasAny body.state ThreadState.terminated) {caller : NativeThread}
    (hinfos : (Agent.serve caller (.frames id 0 (-1)) a).1 = .ok (.frames infos)) :
    (Agent.serve caller (.frames id 0 (-1)) a).2.HasListed id thread body.frames infos := by
  let near := a.setVm (a.vm.attach caller).2
  have hnear : near.Reachable := h.attached hattach caller
  have hnamed' : near.tracker.target? near.vm id = some thread :=
    (tracker_target?_attach a caller id).trans hnamed
  have hbody' : near.vm.threadAt? thread = some body := threadAt?_attach hbody caller
  have hreachable := h.apply (.command caller (.frames id 0 (-1))) Vm.has_nil
  rw [Agent.apply] at hreachable
  rw [Agent.serve_eq_map hattach (by simp) rfl] at hinfos hreachable ⊢
  dsimp only at hinfos hreachable ⊢
  have hread : ((Command.Thread.frames id 0 (-1)).perform near).1 = .ok infos :=
    (told_eq_ok_iff fun _ _ => Reply.frames.inj).mp hinfos
  have hlooks := @Command.Thread.looks_frames Control.Any id 0 (-1)
  have hworld := hlooks.keepsWorld.perform near
  have hrecalls : Recalls near ((Command.Thread.frames id 0 (-1)).perform near).2 :=
    .looks hnear.inOrder hlooks
  obtain ⟨later, hlater, hframes, hsame⟩ := hworld.threads hbody'
  have hlisted := Command.Thread.frames_settles hnear.inShape hnamed' hbody' hended
    (Prod.ext hread rfl)
  rw [Command.Thread.partOf, if_pos rfl, Int.toNat_zero, List.drop_zero] at hlisted
  exact
    { reachable := hreachable
      attaches := hworld.attachFails.trans ((Vm.KeepsWorld.attach a.vm caller).attachFails.trans hattach)
      named := hrecalls.target? hnear.consistent.holds hreachable.consistent.holds hnamed'
      stands := ⟨later, hlater, hsame ▸ hended, hframes⟩
      listed := hlisted }

end Entries

/-- Listing the frames of a stack in parts.  A part is refused for its start if it starts outside the
stack, else for its length if that is less than `-1` or goes beyond the end, and never for its place
otherwise.  Once the stack has been listed as a whole, every part of it that is asked for is that part
of the list, for as long as no identifiers are given back and the debugged world stays as it is.  An
entry tells its depth in the stack, and the position of the frame at this depth; and commands on a
frame that are given this number come to what they come to for the very frame. -/
theorem frames_listed_in_parts {a : Agent} (h : a.Reachable) (hattach : a.vm.attachFails = false)
    {id : ObjectId} {thread : HeapId} {body : ThreadBody}
    (hnamed : a.tracker.target? a.vm id = some thread) (hbody : a.vm.threadAt? thread = some body)
    (hended : ¬ hasAny body.state ThreadState.terminated) (caller : NativeThread) :
    let count : Int := body.frames.length
    let list (start length : Int) := Agent.serve caller (.frames id start length) a
    (∀ start length,
      ((list start length).1 = .error .invalidIndex ↔ start < 0 ∨ count < start) ∧
      (¬ (start < 0 ∨ count < start) →
        ((list start length).1 = .error .invalidLength ↔ length < -1 ∨ count - start < length))) ∧
    ∀ infos, (list 0 (-1)).1 = .ok (.frames infos) → infos.length = count ∧
      ∀ b, (list 0 (-1)).2.Later (fun op => !op.givesBack && !op.isWorldly) b →
        (∀ caller' start length, ¬ (start < 0 ∨ count < start) →
          ¬ (length < -1 ∨ count - start < length) →
            (Agent.serve caller' (.frames id start length) b).1 = .ok (.frames
              (if length = -1 then infos.drop start.toNat
                else (infos.drop start.toNat).take length.toNat))) ∧
        ∀ depth info, infos[depth]? = some info → info.frameId = depth ∧
          ∃ frame, body.frames[depth]? = some frame ∧
            b.Locates frame.method frame.location info.location ∧
            info.location.methodId = frame.method ∧ info.location.index = frame.location.toNat ∧
            (depth < 0x80000000 → ∀ caller' slots,
              Agent.serve caller' (.frameValues id info.frameId slots) b =
                answer caller' (.values <$> Command.Frame.valuesOf id frame slots) b ∧
              Agent.serve caller' (.thisObject id info.frameId) b =
                answer caller' (.receiver <$> Command.Frame.receiverOf id frame) b) := by
  refine ⟨fun start length => ?_, fun infos hinfos => ?_⟩
  · have hbounds := Command.Thread.frames_bounds (h.attached hattach caller).inShape
      ((tracker_target?_attach a caller id).trans hnamed) (threadAt?_attach hbody caller) hended
      start length
    dsimp only
    rw [Agent.serve_eq_map hattach (by simp) rfl, told_eq_error_iff (by decide),
      told_eq_error_iff (by decide)]
    exact hbounds
  · have hlisted := hasListed_of_whole h hattach hnamed hbody hended hinfos
    refine ⟨by rw [hlisted.length_eq], fun b hlater => ⟨?_, fun depth info hinfo => ?_⟩⟩
    · intro caller' start length hstart hlength
      exact (hlisted.later hlater).part caller' hstart hlength
    · have hb := hlisted.later hlater
      obtain ⟨hdepth, frame, hframe, hlocates⟩ := hb.told hinfo
      refine ⟨hdepth, frame, hframe, hlocates, hlocates.methodId_eq, hlocates.index_eq, ?_⟩
      intro hcounted caller' slots
      rw [hdepth]
      exact hb.frame hframe hcounted caller' slots

/-- A thread, known as object 1, that has called a method from the method that it runs. -/
def nested : Agent :=
  (Agent.start Vm.fresh {}).run
    [.setup (.defineClass "LMain;"),
      .setup (.addMethod 9 { name := "run", signature := "()V" }),
      .setup (.addMethod 9 { name := "step", signature := "()V" }), .setup (.spawnThread "main"),
      .setup (.pushFrame 10 0x1000 5), .setup (.pushFrame 10 0x1008 2),
      .command (.client 0) .allThreads]

/-- The frame below the topmost one has the same number when it is listed alone, and is the one that
this number names. -/
theorem nested_listed_in_parts : nested.Reachable ∧ nested.vm.attachFails = false ∧
    nested.tracker.target? nested.vm 1 = some 10 ∧
    let whole := Agent.serve (.client 0) (.frames 1 0 (-1)) nested
    whole.1 = .ok (.frames [⟨0, ⟨.classType, 3, 0x1008, 2⟩⟩, ⟨1, ⟨.classType, 3, 0x1000, 5⟩⟩]) ∧
    (Agent.serve (.client 1) (.frames 1 1 1) whole.2).1 =
      .ok (.frames [⟨1, ⟨.classType, 3, 0x1000, 5⟩⟩]) ∧
    (Agent.serve (.client 0) (.frames 1 1 2) nested).1 = .error .invalidLength ∧
    ∃ frame : Frame, frame.method = 0x1000 ∧
      Agent.serve (.client 1) (.thisObject 1 1) whole.2 =
        answer (.client 1) (.receiver <$> Command.Frame.receiverOf 1 frame) whole.2 := by
  have hreach : nested.Reachable := by
    apply Agent.Reachable.run (.start {})
    decide +kernel
  have hattach : nested.vm.attachFails = false := by decide +kernel
  have hnamed : nested.tracker.target? nested.vm 1 = some 10 := by decide +kernel
  have hthread : (nested.vm.threadAt? 10).map (fun body =>
      (hasAny body.state ThreadState.terminated, body.frames.length)) = some (false, 2) := by
    decide +kernel
  obtain ⟨body, hbody, hshown⟩ := Option.map_eq_some_iff.mp hthread
  simp only [Prod.mk.injEq] at hshown
  obtain ⟨hended, hcount⟩ := hshown
  have hwhole : (Agent.serve (.client 0) (.frames 1 0 (-1)) nested).1 =
      .ok (.frames [⟨0, ⟨.classType, 3, 0x1008, 2⟩⟩, ⟨1, ⟨.classType, 3, 0x1000, 5⟩⟩]) := by
    decide +kernel
  obtain ⟨hbounds, hparts⟩ :=
    frames_listed_in_parts hreach hattach hnamed hbody (by simp [hended]) (.client 0)
  rw [hcount] at hbounds hparts
  obtain ⟨-, hlater⟩ := hparts _ hwhole
  obtain ⟨hpart, hentry⟩ := hlater _ .now
  obtain ⟨-, frame, -, -, hmethod, -, hreads⟩ := hentry 1 _ rfl
  exact ⟨hreach, hattach, hnamed, hwhole, hpart (.client 1) 1 1 (by decide) (by decide),
    ((hbounds 1 2).2 (by decide)).mpr (by decide), frame, hmethod.symm,
    (hreads (by decide) (.client 1) []).2⟩

end DebugAgent
