import DebugAgent.Proofs.Looks

/-!
# Commands that only look

The commands on the machine, classes, objects, threads and frames look at the machine, some stop or
resume threads, and none does more.  The same holds of the capture of a callback and of the check of
a modifier, so of everything in the agent that is not about event requests or about giving
identifiers back; `Deed` lists what is left.
-/

namespace DebugAgent

open Command Tracking

variable {may : Control → Prop}

/-! ### Positions and values -/

namespace Positions

theorem looks_withDeclaringClass {α : Type} (method : MethodId) {x : Handle → Command α}
    (hx : ∀ h, Looks may (x h)) : Looks may (withDeclaringClass method x) :=
  looks_owning (.declaringClass method) fun cls => .bind (looks_requireRef cls _) fun _ => hx cls

theorem looks_locationIn (cls : Handle) (method : MethodId) (index : CodeIndex) :
    Looks may (locationIn cls method index) :=
  .bind (looks_trackClass cls) fun _ => .pure _

theorem looks_locate (method : MethodId) (index : CodeIndex) : Looks may (locate method index) :=
  looks_withDeclaringClass method fun cls => looks_locationIn cls method index

end Positions

namespace Reading

/-- A value is turned into data by the one who owns the reference in it. -/
theorem looks_wrapping {x : Command RawValue} (hx : Opens x RawValue.owned) (tag : TypeTag) :
    Looks may (x >>= wrap tag) := by
  apply looks_bracket hx
  intro raw
  cases raw with
  | primitive v => exact ⟨_, (withLocals_nil _).symm, looks_ofExcept _⟩
  | object h => exact ⟨_, rfl, .bind (looks_trackObject h tag) fun _ => .pure _⟩

theorem looks_readField (owner : FieldOwner) (field : FieldId) (signature : String) :
    Looks may (readField owner field signature) := by
  apply Looks.bind (looks_ofExcept _)
  intro tag
  apply Looks.bind (looks_ofExcept _)
  intro kind
  cases owner with
  | inClass cls => exact looks_wrapping (.staticField cls field kind) tag
  | inObject object => exact looks_wrapping (.instanceField object field kind) tag

theorem looks_readElement (array : Handle) (tag : TypeTag) (index : Int) :
    Looks may (readElement array tag index) :=
  looks_owning (.arrayElement array index) fun h =>
    .bind (looks_trackObject h tag) fun _ => .pure _

theorem looks_readArray (array : Handle) (signature : String) (first length : Int) :
    Looks may (readArray array signature first length) := by
  apply Looks.bind (looks_ofExcept _)
  intro component
  apply Looks.bind (looks_ofExcept _)
  intro tag
  apply looks_ite
  · exact looks_mapM (fun _ => looks_readElement array tag _) _
  · exact .bind (looks_ofExcept _) fun kind => .bind (.arrayRegion array kind first length) fun _ =>
      .bind (looks_guard _ _) fun _ => looks_ofExcept _

theorem looks_readLocal (thread : Handle) (depth slot : Int) (signature : String) :
    Looks may (readLocal thread depth slot signature) :=
  .bind (looks_ofExcept _) fun tag => .bind (looks_ofExcept _) fun kind =>
    looks_wrapping (.localVariable thread depth slot kind) tag

end Reading

/-! ### Stopping and resuming threads -/

namespace Suspension

theorem looks_suspendAll (hmay : may .stop) (caller : NativeThread) :
    Looks may (suspendAll caller) := by
  apply looks_bracket (.currentThread caller)
  intro current
  have hrest : ∀ own, Looks may (do
      let threads ← call Vm.allThreads
      withLocals threads do
        let targets ← see fun vm => others vm own threads
        let _ ← call (Vm.suspendThreads caller targets) : Command Unit) := by
    intro own
    apply looks_owningAll .allThreads
    intro threads
    exact .bind (looks_see _) fun targets =>
      .bind (.suspendThreads hmay caller targets) fun _ => .pure _
  cases current with
  | ok own => exact ⟨_, rfl, hrest own⟩
  | error _ => exact ⟨_, rfl, hrest .null⟩

theorem looks_resumeAll (hmay : may .resume) : Looks may resumeAll :=
  looks_owningAll .allThreads fun threads => .bind (.resumeThreads hmay threads) fun _ => .pure _

theorem looks_suspend (hmay : may .stop) (caller : NativeThread) (thread : ObjectId) :
    Looks may (suspend caller thread) :=
  looks_withThread thread fun h => .suspendThread hmay caller h

theorem looks_resume (hmay : may .resume) (thread : ObjectId) : Looks may (resume thread) :=
  looks_withThread thread fun h => .resumeThread hmay h

end Suspension

namespace Command

/-! ### The machine as a whole -/

namespace Machine

theorem looks_version : Looks may version :=
  .bind (.look _) fun _ => .bind (looks_ask _) fun _ => .bind (looks_ask _) fun _ => .pure _

theorem looks_classRecord? (wanted : String → Bool) (cls : Handle) :
    Looks may (classRecord? wanted cls) := by
  apply Looks.bind (looks_ask _)
  intro signature
  apply looks_ite
  · exact .bind (looks_trackClass cls) fun _ => .bind (looks_ask _) fun _ => .pure _
  · exact .pure _

theorem looks_classesWhere (wanted : String → Bool) : Looks may (classesWhere wanted) :=
  looks_owningAll .loadedClasses fun classes =>
    .bind (looks_mapM (looks_classRecord? wanted) classes) fun _ => .pure _

theorem looks_allThreads : Looks may allThreads :=
  looks_owningAll .allThreads fun threads => looks_mapM .trackNew threads

theorem looks_topLevelThreadGroups : Looks may topLevelThreadGroups :=
  looks_owningAll .threadGroups fun groups => looks_mapM .trackNew groups

end Machine

/-! ### Classes and methods -/

namespace Class

theorem looks_signatureWithGeneric (id : ObjectId) : Looks may (signatureWithGeneric id) :=
  looks_withClass id fun _ => looks_ask _

theorem looks_signature (id : ObjectId) : Looks may (signature id) :=
  .bind (looks_signatureWithGeneric id) fun _ => .pure _

theorem looks_modifiers (id : ObjectId) : Looks may (modifiers id) :=
  looks_withClass id fun _ => looks_ask _

theorem looks_fieldRecord (cls : Handle) (field : FieldId) : Looks may (fieldRecord cls field) :=
  .bind (looks_ask _) fun _ => .bind (looks_ask _) fun _ => .pure _

theorem looks_fields (id : ObjectId) : Looks may (fields id) :=
  looks_withClass id fun cls =>
    .bind (looks_ask _) fun fields => looks_mapM (looks_fieldRecord cls) fields

theorem looks_methodRecord (method : MethodId) : Looks may (methodRecord method) :=
  .bind (looks_ask _) fun _ => .bind (looks_ask _) fun _ => .pure _

theorem looks_methods (id : ObjectId) : Looks may (methods id) :=
  looks_withClass id fun _ =>
    .bind (looks_ask _) fun methods => looks_mapM looks_methodRecord methods

theorem looks_value (cls : Handle) (field : FieldId) : Looks may (value cls field) :=
  .bind (looks_ask _) fun _ => .bind (looks_ask _) fun _ => .bind (looks_guard _ _) fun _ =>
    Reading.looks_readField _ field _

theorem looks_values (id : ObjectId) (fields : List FieldId) : Looks may (values id fields) :=
  looks_withClass id fun cls => looks_mapM (looks_value cls) fields

theorem looks_sourceFile (id : ObjectId) : Looks may (sourceFile id) :=
  looks_withClass id fun _ => looks_ask _

theorem looks_status (id : ObjectId) : Looks may (status id) :=
  looks_withClass id fun _ => .bind (looks_ask _) fun _ => .pure _

theorem looks_interfaces (id : ObjectId) : Looks may (interfaces id) := by
  apply looks_withClass id
  intro cls
  apply looks_owningAll (.interfaces cls)
  intro interfaces
  exact looks_mapM (fun h => looks_map TaggedTypeId.typeId (looks_trackClass h)) interfaces

end Class

namespace Method

theorem looks_withMethod {α : Type} (refType : ObjectId) (method : MethodId) {x : Command α}
    (hx : Looks may x) : Looks may (withMethod refType method x) :=
  looks_withClass refType fun _ => .bind (looks_ofExcept _) fun _ => hx

theorem looks_lineTable (refType : ObjectId) (method : MethodId) :
    Looks may (lineTable refType method) :=
  looks_withMethod refType method <|
    .bind (looks_ask _) fun _ => .bind (looks_ask _) fun _ => .pure _

theorem looks_variableTable (refType : ObjectId) (method : MethodId) :
    Looks may (variableTable refType method) :=
  looks_withMethod refType method <|
    .bind (looks_ask _) fun _ => .bind (looks_ask _) fun _ =>
      .bind (looks_ofExcept _) fun _ => .bind (looks_ask _) fun _ => .pure _

theorem looks_bytecodes (refType : ObjectId) (method : MethodId) :
    Looks may (bytecodes refType method) :=
  looks_withMethod refType method (looks_ask _)

end Method

/-! ### Objects -/

namespace Object

theorem looks_withClassOf {α : Type} (object : Handle) {x : Handle → Command α}
    (hx : ∀ h, Looks may (x h)) : Looks may (withClassOf object x) :=
  looks_owning (.objectClass object) fun cls => .bind (looks_requireRef cls _) fun _ => hx cls

theorem looks_referenceType (id : ObjectId) : Looks may (referenceType id) :=
  looks_withObject id fun object => looks_withClassOf object looks_trackClass

/-- The search for a field owns the class that it looks at; `body` is what it does with it. -/
theorem looks_searchFrom {x : Command Handle} (hx : Opens x fun h => [h]) (object : Handle)
    (field : FieldId) (depth : Nat) : Looks may (x >>= valueFrom object field depth) := by
  induction depth generalizing x with
  | zero => exact looks_owning hx fun _ => looks_refuse .invalidFieldId
  | succ depth ih =>
      apply looks_bracket hx
      intro cls
      refine ⟨_, rfl, .bind (looks_requireRef cls _) fun _ => .bind (looks_tryAsk _) fun name? => ?_⟩
      cases name? with
      | ok name => exact .bind (looks_ask _) fun _ => Reading.looks_readField _ field _
      | error _ => exact ih (.superclass cls)

theorem looks_value (object cls : Handle) (field : FieldId) : Looks may (value object cls field) :=
  .bind (looks_see _) fun depth => looks_searchFrom (.another cls) object field depth

theorem looks_values (id : ObjectId) (fields : List FieldId) : Looks may (values id fields) :=
  looks_withObject id fun object => looks_withClassOf object fun cls =>
    looks_mapM (looks_value object cls) fields

theorem looks_stringValue (id : ObjectId) : Looks may (stringValue id) :=
  looks_withObject id fun object => .bind (.stringChars object) (looks_require _)

theorem looks_arraySignature (array : Handle) : Looks may (arraySignature array) :=
  looks_withClassOf array fun _ =>
    .bind (looks_ask _) fun _ => .bind (looks_guard _ _) fun _ => .pure _

theorem looks_arrayLength (id : ObjectId) : Looks may (arrayLength id) :=
  looks_withObject id fun array => .bind (looks_arraySignature array) fun _ => .arrayLength array

theorem looks_arrayValues (id : ObjectId) (first length : Int) :
    Looks may (arrayValues id first length) :=
  looks_withObject id fun array => .bind (looks_arraySignature array) fun signature =>
    .bind (.arrayLength array) fun _ => .bind (looks_guard _ _) fun _ =>
      .bind (looks_guard _ _) fun _ => Reading.looks_readArray array signature first length

end Object

/-! ### Threads and frames -/

namespace Thread

theorem looks_withInfo {α : Type} (id : ObjectId) {x : Vm.ThreadInfo → Command α}
    (hx : ∀ info, Looks may (x info)) : Looks may (withInfo id x) :=
  looks_withThread id fun thread => .bracket (.threadInfo thread) hx fun _ => rfl

theorem looks_name (id : ObjectId) : Looks may (name id) := looks_withInfo id fun _ => .pure _

theorem looks_group (id : ObjectId) : Looks may (group id) :=
  looks_withInfo id fun info => .trackNew info.group

theorem looks_state (id : ObjectId) : Looks may (state id) :=
  looks_withThread id fun _ => looks_ask _

theorem looks_status (id : ObjectId) : Looks may (status id) :=
  .bind (looks_state id) fun _ => .pure _

theorem looks_suspendCount (id : ObjectId) : Looks may (suspendCount id) :=
  .bind (looks_state id) fun _ => .pure _

theorem looks_frameCount (id : ObjectId) : Looks may (frameCount id) :=
  looks_withThread id fun _ => looks_ask _

theorem looks_frames (id : ObjectId) (start length : Int) : Looks may (frames id start length) := by
  apply looks_withThread id
  intro thread
  refine .bind (looks_ask _) fun _ => .bind (looks_guard _ _) fun _ => ?_
  refine .bind (looks_ofExcept _) fun _ => .bind (looks_ask _) fun frames => ?_
  apply looks_mapM
  rintro ⟨⟨method, index⟩, offset⟩
  exact .bind (Positions.looks_locate method index) fun _ => .pure _

end Thread

namespace Frame

theorem looks_value (thread : Handle) (depth : Int) (index : CodeIndex)
    (entries : List LocalVariable) (slot : Int) :
    Looks may (value thread depth index entries slot) :=
  .bind (looks_require _ _) fun entry => Reading.looks_readLocal thread depth slot entry.signature

theorem looks_values (thread : ObjectId) (frame : FrameId) (slots : List Int) :
    Looks may (values thread frame slots) :=
  looks_withThread thread fun thread => .bind (looks_ofExcept _) fun depth =>
    .bind (looks_ask _) fun _ => .bind (looks_ask _) fun entries =>
      looks_mapM (looks_value thread depth _ entries) slots

theorem looks_thisObject (thread : ObjectId) (frame : FrameId) :
    Looks may (thisObject thread frame) := by
  apply looks_withThread thread
  intro thread
  refine .bind (looks_ofExcept _) fun depth => .bind (looks_ask _) fun _ => ?_
  refine .bind (looks_ask _) fun _ => looks_ite (.pure _) ?_
  apply looks_bracket (.localVariable thread depth 0 .object)
  intro raw
  cases raw with
  | primitive v => exact ⟨_, (withLocals_nil _).symm, looks_refuse _⟩
  | object h => exact ⟨_, rfl, .bind (looks_trackObject h .object) fun _ => .pure _⟩

end Frame

end Command

/-! ### Callbacks and modifiers -/

namespace Capture

theorem looks_scene (thread : Handle) : Looks may (scene thread) :=
  .bind (.trackNew thread) fun _ => .bind (looks_see _) fun _ => .pure _

theorem looks_site (method : MethodId) (index : CodeIndex) : Looks may (site method index) :=
  Positions.looks_withDeclaringClass method fun cls =>
    .bind (Positions.looks_locationIn cls method index) fun _ =>
      .bind (looks_ask _) fun _ => .bind (looks_see _) fun _ => .pure _

theorem looks_runningReceiver (thread : Handle) (method : MethodId) :
    Looks may (runningReceiver thread method) := by
  apply Looks.bind (looks_tryAsk _)
  intro modifiers
  cases modifiers with
  | error _ => exact .pure none
  | ok modifiers =>
      apply looks_ite (.pure none)
      apply looks_bracket (.receiver thread)
      rintro (_ | _ | h)
      · exact ⟨_, (withLocals_nil _).symm, .pure none⟩
      · exact ⟨_, (withLocals_nil _).symm, .pure none⟩
      · exact ⟨_, rfl, looks_see _⟩

theorem looks_receiver (wanted : Bool) (thread : Handle) (method : MethodId) :
    Looks may (receiver wanted thread method) :=
  looks_ite (looks_runningReceiver thread method) (.pure none)

theorem looks_thrownClass (thrown : Handle) : Looks may (thrownClass thrown) :=
  looks_owning (.objectClass thrown) fun cls => .bind (looks_requireRef cls _) fun _ => looks_see _

/-- A callback in a thread is captured by tracking the thread first.  The rest looks at the machine
and keeps the thread and its identifier. -/
theorem capture_scene (wantsReceiver : Bool) {c : Callback Handle} {thread : Handle}
    (hthread : c.thread? = some thread) :
    ∃ rest : Scene → Command Context, capture wantsReceiver c = scene thread >>= rest ∧
      ∀ s, Looks may (rest s) ∧ (rest s).Returns fun ctx =>
        ctx.threadId = s.threadId ∧ ctx.thread = s.thread := by
  have hreceiver : ∀ method, Looks may (receiver wantsReceiver thread method) :=
    looks_receiver wantsReceiver thread
  cases c with
  | vmDeath => cases hthread
  | threadStart | threadEnd =>
      cases hthread
      exact ⟨_, rfl, fun s => ⟨.pure _, returns_pure ⟨rfl, rfl⟩⟩⟩
  | classPrepare _ prepared =>
      cases hthread
      refine ⟨_, rfl, fun s => ⟨looks_owning (.another prepared) fun cls => ?_, ?_⟩⟩
      · exact .bind (looks_requireRef cls _) fun _ => .bind (looks_trackClass cls) fun _ =>
          .bind (looks_ask _) fun _ => .bind (looks_ask _) fun _ =>
            .bind (looks_see _) fun _ => .pure _
      · refine returns_after fun _ => returns_withLocal (returns_after fun _ => ?_)
        refine returns_after fun _ => returns_after fun _ => returns_after fun _ => ?_
        exact returns_after fun _ => returns_pure ⟨rfl, rfl⟩
  | breakpoint _ method index | methodExit _ method index =>
      cases hthread
      refine ⟨_, rfl, fun s => ⟨.bind (looks_site method index) fun _ => ?_, ?_⟩⟩
      · exact .bind (hreceiver method) fun _ => .pure _
      · exact returns_after fun _ => returns_after fun _ => returns_pure ⟨rfl, rfl⟩
  | singleStep _ method index =>
      cases hthread
      refine ⟨_, rfl, fun s => ⟨.bind (looks_site method index) fun _ => ?_, ?_⟩⟩
      · exact .bind (looks_see _) fun _ => .bind (looks_see _) fun _ =>
          .bind (hreceiver method) fun _ => .pure _
      · refine returns_after fun _ => returns_after fun _ => returns_after fun _ => ?_
        exact returns_after fun _ => returns_pure ⟨rfl, rfl⟩
  | exception _ method index thrown handler =>
      cases hthread
      refine ⟨_, rfl, fun s => ⟨.bind (looks_site method index) fun _ => ?_, ?_⟩⟩
      · refine .bind (looks_thrownClass thrown) fun _ => ?_
        refine .bind (looks_trackObject thrown .object) fun _ => ?_
        cases handler with
        | none => exact .bind (.pure _) fun _ => .bind (hreceiver method) fun _ => .pure _
        | some position =>
            exact .bind (looks_map some (looks_site position.1 position.2)) fun _ =>
              .bind (hreceiver method) fun _ => .pure _
      · refine returns_after fun _ => returns_after fun _ => returns_after fun _ => ?_
        cases handler <;> exact returns_after fun _ => returns_after fun _ => returns_pure ⟨rfl, rfl⟩
  | methodEntry _ method =>
      cases hthread
      refine ⟨_, rfl, fun s => ⟨.bind (looks_ask _) fun _ => ?_, ?_⟩⟩
      · exact .bind (looks_site method _) fun _ => .bind (hreceiver method) fun _ => .pure _
      · exact returns_after fun _ => returns_after fun _ => returns_after fun _ => returns_pure ⟨rfl, rfl⟩

theorem looks_capture (wantsReceiver : Bool) (c : Callback Handle) :
    Looks may (capture wantsReceiver c) := by
  cases hthread : c.thread? with
  | none =>
      cases c with
      | vmDeath => exact .pure _
      | _ => cases hthread
  | some thread =>
      obtain ⟨rest, hcapture, hrest⟩ := capture_scene wantsReceiver hthread
      rw [hcapture]
      exact .bind (looks_scene thread) fun s => (hrest s).1

end Capture

namespace Filter

theorem looks_checkKind (refType : ObjectId) (cls : Option HeapId) :
    Looks may (checkKind refType cls) := by
  cases cls with
  | none => exact .pure false
  | some cls => exact looks_owning (.acquire refType) fun _ => looks_see _

theorem looks_check (ctx : Context) (stepThread : Option Handle) (filter : Filter) :
    Looks may (filter.check ctx stepThread) := by
  cases filter with
  | classOnly refType => exact looks_checkKind refType ctx.cls
  | exceptionOnly refType caught uncaught =>
      exact looks_ite (.pure false) (looks_ite (.pure true) (looks_checkKind refType _))
  | instanceOnly object =>
      simp only [check]
      split
      · exact .pure false
      · exact looks_owning (.acquire object) fun _ => looks_see _
  | _ => exact .look _

end Filter

namespace Registration

theorem looks_startPoint (thread : Handle) : Looks may (startPoint thread) :=
  .bind (looks_ask _) fun _ => .bind (looks_ask _) fun _ => .bind (looks_see _) fun _ => .pure _

theorem looks_filterOf (kind : EventKind) (modifier : EventModifier) :
    Looks may (filterOf kind modifier) := by
  apply Looks.bind (looks_guard _ _)
  intro _
  cases modifier with
  | count times => exact .bind (looks_guard _ _) fun _ => .pure _
  | threadOnly thread => exact looks_withThread thread fun _ => .pure _
  | classOnly refType => exact looks_withClass refType fun _ => .pure _
  | classMatch pattern | classExclude pattern => exact .pure _
  | locationOnly location =>
      exact .bind (looks_ofExcept _) fun _ => looks_withClass location.classId fun _ => .pure _
  | exceptionOnly refType caught uncaught =>
      apply looks_ite
      · exact .bind (looks_withClass refType fun _ => .pure _) fun _ => .pure _
      · exact .pure _
  | fieldOnly refType field => exact looks_refuse _
  | step thread size depth =>
      exact looks_withThread thread fun h => .bind (looks_startPoint h) fun _ => .pure _
  | instanceOnly object => exact looks_withObject object fun _ => .pure _

end Registration

/-! ### What the client can ask for -/

/-- What a command does to threads. -/
def ClientCommand.Does : ClientCommand → Control → Prop
  | .suspend, .stop | .suspendThread _, .stop | .resume, .resume | .resumeThread _, .resume => True
  | _, _ => False

/-- The command neither gives identifiers back nor sets or clears event requests. -/
def ClientCommand.onlyLooks : ClientCommand → Bool
  | .disposeObjects _ | .setEvent _ _ _ | .clearEvent _ _ | .setBreakpoint _ _ | .clearBreakpoint _
  | .clearAllBreakpoints => false
  | _ => true

namespace Command

/-- What a command of the client amounts to. -/
inductive Deed (may : Control → Prop) : Command Reply → Prop where
  | looks {x : Command Reply} (hx : Looks may x) : Deed may x
  | dispose (requests : List DisposeRequest) : Deed may (done (Machine.disposeObjects requests))
  | set (kindCode : Nat) (policy : SuspendPolicy) (modifiers : List EventModifier) :
      Deed may (Reply.request <$> EventRequest.set kindCode policy modifiers)
  | clear (kindCode : Nat) (id : RequestId) : Deed may (done (EventRequest.clear kindCode id))
  | clearBreakpoints : Deed may (done Registration.clearBreakpoints)

theorem looks_done {x : Command Unit} (hx : Looks may x) : Looks may (done x) :=
  .bind hx fun _ => .pure _

theorem looks_ofClient (caller : NativeThread) {command : ClientCommand}
    (hlooks : command.onlyLooks) : Looks command.Does (ofClient caller command) := by
  cases command with
  | version => exact looks_map _ Machine.looks_version
  | allClasses => exact looks_map _ (Machine.looks_classesWhere _)
  | classesBySignature signature => exact looks_map _ (Machine.looks_classesWhere _)
  | allThreads => exact looks_map _ Machine.looks_allThreads
  | topLevelThreadGroups => exact looks_map _ Machine.looks_topLevelThreadGroups
  | suspend => exact looks_done (Suspension.looks_suspendAll trivial caller)
  | resume => exact looks_done (Suspension.looks_resumeAll trivial)
  | capabilities => exact .look _
  | signature refType => exact looks_map _ (Class.looks_signature refType)
  | signatureWithGeneric refType =>
      exact .bind (Class.looks_signatureWithGeneric refType) fun _ => .pure _
  | modifiers refType => exact looks_map _ (Class.looks_modifiers refType)
  | fields refType => exact looks_map _ (Class.looks_fields refType)
  | methods refType => exact looks_map _ (Class.looks_methods refType)
  | staticValues refType fields => exact looks_map _ (Class.looks_values refType fields)
  | sourceFile refType => exact looks_map _ (Class.looks_sourceFile refType)
  | classStatus refType => exact looks_map _ (Class.looks_status refType)
  | interfaces refType => exact looks_map _ (Class.looks_interfaces refType)
  | lineTable refType method => exact looks_map _ (Method.looks_lineTable refType method)
  | variableTable refType method => exact looks_map _ (Method.looks_variableTable refType method)
  | bytecodes refType method => exact looks_map _ (Method.looks_bytecodes refType method)
  | referenceType object => exact looks_map _ (Object.looks_referenceType object)
  | objectValues object fields => exact looks_map _ (Object.looks_values object fields)
  | stringValue string => exact looks_map _ (Object.looks_stringValue string)
  | arrayLength array => exact looks_map _ (Object.looks_arrayLength array)
  | arrayValues array first length =>
      exact looks_map _ (Object.looks_arrayValues array first length)
  | threadName thread => exact looks_map _ (Thread.looks_name thread)
  | suspendThread thread => exact looks_done (Suspension.looks_suspend trivial caller thread)
  | resumeThread thread => exact looks_done (Suspension.looks_resume trivial thread)
  | threadStatus thread => exact .bind (Thread.looks_status thread) fun _ => .pure _
  | threadGroup thread => exact looks_map _ (Thread.looks_group thread)
  | frames thread start length => exact looks_map _ (Thread.looks_frames thread start length)
  | frameCount thread => exact looks_map _ (Thread.looks_frameCount thread)
  | suspendCount thread => exact looks_map _ (Thread.looks_suspendCount thread)
  | frameValues thread frame slots => exact looks_map _ (Frame.looks_values thread frame slots)
  | thisObject thread frame => exact looks_map _ (Frame.looks_thisObject thread frame)
  | reserved command => exact looks_refuse _
  | disposeObjects | setEvent | clearEvent | setBreakpoint | clearBreakpoint | clearAllBreakpoints =>
      cases hlooks

theorem deed_ofClient (caller : NativeThread) (command : ClientCommand) :
    Deed command.Does (ofClient caller command) := by
  cases command with
  | disposeObjects requests => exact .dispose requests
  | setEvent kindCode policy modifiers => exact .set kindCode policy modifiers
  | clearEvent kindCode request => exact .clear kindCode request
  | setBreakpoint location policy => exact .set _ policy [.locationOnly location]
  | clearBreakpoint request => exact .clear _ request
  | clearAllBreakpoints => exact .clearBreakpoints
  | _ => exact .looks (looks_ofClient caller rfl)

end Command

/-- All commands but one are answered after the native thread has been attached. -/
theorem Agent.serve_eq {command : ClientCommand} (hcommand : command ≠ .capabilities)
    (caller : NativeThread) :
    serve caller command = answer caller (ofClient caller command) := by
  cases command with
  | capabilities => exact absurd rfl hcommand
  | _ => rfl

end DebugAgent
