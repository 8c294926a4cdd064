import DebugAgent.Proofs.Commands
import DebugAgent.Proofs.InStep

/-!
# What the client is told in step

Agents in step answer every command of the client alike, gather the same from a callback and send
the same event sets.
-/

namespace DebugAgent

open DebugAgent.Action Command

variable {p : Pairing} {a b : Agent} {h k : Handle} {α : Type}

/-! ### Commands -/

namespace Command.Machine

open Tracking

theorem lockstep_version : Lockstep (Agent.Paired p) Eq version version :=
  lockstep_bind_eq (lockstep_look fun hp => hp.config.symm) fun _ =>
    lockstep_bind_eq (lockstep_ask_same fun _ _ _ => rfl) fun _ =>
      lockstep_bind_eq (lockstep_ask_same fun _ _ _ => rfl) fun _ => lockstep_pure rfl

theorem lockstep_classStatus (hk : p.stands h k) :
    Lockstep (Agent.Paired p) Eq (ask fun vm => vm.classStatus h)
      (ask fun vm => vm.classStatus k) :=
  lockstep_ask fun hv => by rw [Vm.classStatus, Vm.classStatus, hv.classOf hk]

theorem lockstep_classRecord? (wanted : String → Bool) (hk : p.stands h k) :
    Lockstep (Agent.Paired p) Eq (classRecord? wanted h) (classRecord? wanted k) :=
  lockstep_bind_eq (lockstep_classSignature hk) fun _ =>
    lockstep_ite
      (lockstep_bind_eq (lockstep_trackClass hk) fun _ =>
        lockstep_bind_eq (lockstep_classStatus hk) fun _ => lockstep_pure rfl)
      (lockstep_pure rfl)

theorem lockstep_classesWhere (wanted : String → Bool) :
    Lockstep (Agent.Paired p) Eq (classesWhere wanted) (classesWhere wanted) :=
  lockstep_bind (lockstep_call Vm.lockstep_loadedClasses) fun hks =>
    lockstep_withLocals hks
      (lockstep_bind_eq (lockstep_mapM_eq (fun hk => lockstep_classRecord? wanted hk) hks)
        fun _ => lockstep_pure rfl)

theorem lockstep_allThreads : Lockstep (Agent.Paired p) Eq allThreads allThreads :=
  lockstep_bind (lockstep_call Vm.lockstep_allThreads) fun hks =>
    lockstep_withLocals hks (lockstep_mapM_eq (fun hk => lockstep_trackNew hk) hks)

theorem lockstep_topLevelThreadGroups :
    Lockstep (Agent.Paired p) Eq topLevelThreadGroups topLevelThreadGroups :=
  lockstep_bind (lockstep_call Vm.lockstep_topThreadGroups) fun hks =>
    lockstep_withLocals hks (lockstep_mapM_eq (fun hk => lockstep_trackNew hk) hks)

theorem lockstep_disposeObjects (requests : List DisposeRequest) :
    Lockstep (Agent.Paired p) Eq (disposeObjects requests) (disposeObjects requests) :=
  lockstep_forM (P := Eq) (fun {request _} hsame => hsame ▸
    lockstep_bind_eq (lockstep_attempt_eq (lockstep_dispose request.objectId request.count))
      fun _ => lockstep_pure rfl) (List.forall₂_eq_eq_eq ▸ rfl)

end Command.Machine

namespace Command.Class

open Tracking

theorem lockstep_signatureWithGeneric (id : ObjectId) :
    Lockstep (Agent.Paired p) Eq (signatureWithGeneric id) (signatureWithGeneric id) :=
  lockstep_withRef id _ fun hk => lockstep_classSignature hk

theorem lockstep_signature (id : ObjectId) :
    Lockstep (Agent.Paired p) Eq (signature id) (signature id) :=
  lockstep_bind_eq (lockstep_signatureWithGeneric id) fun _ => lockstep_pure rfl

theorem lockstep_modifiers (id : ObjectId) :
    Lockstep (Agent.Paired p) Eq (modifiers id) (modifiers id) :=
  lockstep_withRef id _ fun hk => lockstep_ask fun hv => by
    rw [Vm.classModifiers, Vm.classModifiers, hv.classOf hk]

theorem lockstep_fieldName (hk : p.stands h k) (field : FieldId) :
    Lockstep (Agent.Paired p) Eq (ask fun vm => vm.fieldName h field)
      (ask fun vm => vm.fieldName k field) :=
  lockstep_ask fun hv => hv.fieldName hk field

theorem lockstep_fieldModifiers (hk : p.stands h k) (field : FieldId) :
    Lockstep (Agent.Paired p) Eq (ask fun vm => vm.fieldModifiers h field)
      (ask fun vm => vm.fieldModifiers k field) :=
  lockstep_ask fun hv => by rw [Vm.fieldModifiers, Vm.fieldModifiers, hv.fieldOf hk]

theorem lockstep_fieldRecord (hk : p.stands h k) (field : FieldId) :
    Lockstep (Agent.Paired p) Eq (fieldRecord h field) (fieldRecord k field) :=
  lockstep_bind_eq (lockstep_fieldName hk field) fun _ =>
    lockstep_bind_eq (lockstep_fieldModifiers hk field) fun _ => lockstep_pure rfl

theorem lockstep_fields (id : ObjectId) :
    Lockstep (Agent.Paired p) Eq (fields id) (fields id) :=
  lockstep_withRef id _ fun hk =>
    lockstep_bind_eq (lockstep_ask fun hv => by
        rw [Vm.classFields, Vm.classFields, hv.preparedClassOf hk]) fun _ =>
      lockstep_mapM_same (fun field => lockstep_fieldRecord hk field) _

theorem lockstep_methodRecord (method : MethodId) :
    Lockstep (Agent.Paired p) Eq (methodRecord method) (methodRecord method) :=
  lockstep_bind_eq (lockstep_ask_same fun _ _ _ => rfl) fun _ =>
    lockstep_bind_eq (lockstep_ask_same fun _ _ _ => rfl) fun _ => lockstep_pure rfl

theorem lockstep_methods (id : ObjectId) :
    Lockstep (Agent.Paired p) Eq (methods id) (methods id) :=
  lockstep_withRef id _ fun hk =>
    lockstep_bind_eq (lockstep_ask fun hv => by
        rw [Vm.classMethods, Vm.classMethods, hv.preparedClassOf hk]) fun _ =>
      lockstep_mapM_same lockstep_methodRecord _

theorem lockstep_value (hk : p.stands h k) (field : FieldId) :
    Lockstep (Agent.Paired p) Eq (value h field) (value k field) :=
  lockstep_bind_eq (lockstep_fieldName hk field) fun _ =>
    lockstep_bind_eq (lockstep_fieldModifiers hk field) fun _ =>
      lockstep_bind_eq (lockstep_guard _ _) fun _ =>
        Reading.lockstep_readField (.inClass hk) field _

theorem lockstep_values (id : ObjectId) (fields : List FieldId) :
    Lockstep (Agent.Paired p) Eq (values id fields) (values id fields) :=
  lockstep_withRef id _ fun hk => lockstep_mapM_same (fun field => lockstep_value hk field) fields

theorem lockstep_sourceFile (id : ObjectId) :
    Lockstep (Agent.Paired p) Eq (sourceFile id) (sourceFile id) :=
  lockstep_withRef id _ fun hk => lockstep_ask fun hv => by
    rw [Vm.sourceFileName, Vm.sourceFileName, hv.demand, hv.classOf hk]

theorem lockstep_status (id : ObjectId) :
    Lockstep (Agent.Paired p) Eq (status id) (status id) :=
  lockstep_withRef id _ fun hk =>
    lockstep_bind_eq (Machine.lockstep_classStatus hk) fun _ => lockstep_pure rfl

theorem lockstep_interfaces (id : ObjectId) :
    Lockstep (Agent.Paired p) Eq (interfaces id) (interfaces id) :=
  lockstep_withRef id _ fun hk =>
    lockstep_bind (lockstep_call (Vm.lockstep_implementedInterfaces hk)) fun hks =>
      lockstep_withLocals hks
        (lockstep_mapM_eq (fun hk => lockstep_map_eq _ (lockstep_trackClass hk)) hks)

end Command.Class

namespace Command.Method

open Tracking

theorem lockstep_withMethod (refType : ObjectId) (method : MethodId) {x : Command α}
    (hx : Lockstep (Agent.Paired p) Eq x x) :
    Lockstep (Agent.Paired p) Eq (withMethod refType method x) (withMethod refType method x) :=
  lockstep_withRef refType _ fun _ => lockstep_bind_eq (lockstep_ofExcept _) fun _ => hx

theorem lockstep_lineTable (refType : ObjectId) (method : MethodId) :
    Lockstep (Agent.Paired p) Eq (lineTable refType method) (lineTable refType method) :=
  lockstep_withMethod refType method <|
    lockstep_bind_eq (lockstep_ask_same fun _ _ _ => rfl) fun _ =>
      lockstep_bind_eq (lockstep_ask_same fun _ _ _ => rfl) fun _ => lockstep_pure rfl

theorem lockstep_variableTable (refType : ObjectId) (method : MethodId) :
    Lockstep (Agent.Paired p) Eq (variableTable refType method) (variableTable refType method) :=
  lockstep_withMethod refType method <|
    lockstep_bind_eq (lockstep_ask_same fun _ _ _ => rfl) fun _ =>
      lockstep_bind_eq (lockstep_ask_same fun _ _ _ => rfl) fun _ =>
        lockstep_bind_eq (lockstep_ofExcept _) fun _ =>
          lockstep_bind_eq (lockstep_ask_same fun _ _ _ => rfl) fun _ => lockstep_pure rfl

theorem lockstep_bytecodes (refType : ObjectId) (method : MethodId) :
    Lockstep (Agent.Paired p) Eq (bytecodes refType method) (bytecodes refType method) :=
  lockstep_withMethod refType method (lockstep_ask_same fun _ _ _ => rfl)

end Command.Method

namespace Command.Object

open Tracking

theorem lockstep_withClassOf (hk : p.stands h k) {x y : Handle → Command α}
    (hx : ∀ {h k}, p.stands h k → Lockstep (Agent.Paired p) Eq (x h) (y k)) :
    Lockstep (Agent.Paired p) Eq (withClassOf h x) (withClassOf k y) :=
  lockstep_bind (lockstep_native (Vm.lockstep_objectClassRef hk)) fun hcls =>
    lockstep_withLocal hcls (lockstep_bind_eq (lockstep_requireRef hcls _) fun _ => hx hcls)

theorem lockstep_referenceType (id : ObjectId) :
    Lockstep (Agent.Paired p) Eq (referenceType id) (referenceType id) :=
  lockstep_withRef id _ fun hk => lockstep_withClassOf hk fun hcls => lockstep_trackClass hcls

theorem lockstep_valueFrom (hk : p.stands h k) (field : FieldId) (depth : Nat) {cls cls' : Handle}
    (hcls : p.stands cls cls') :
    Lockstep (Agent.Paired p) Eq (valueFrom h field depth cls) (valueFrom k field depth cls') := by
  induction depth generalizing cls cls' with
  | zero => exact lockstep_withLocal hcls (lockstep_refuse _)
  | succ depth ih =>
      refine lockstep_withLocal hcls (lockstep_bind_eq (lockstep_requireRef hcls _) fun _ => ?_)
      refine lockstep_bind_eq (lockstep_tryAsk fun hv => hv.fieldName hcls field) fun named => ?_
      cases named with
      | error => exact lockstep_bind (lockstep_touch fun hv => hv.superclassRef hcls) ih
      | ok named =>
          refine lockstep_bind_eq (Class.lockstep_fieldModifiers hcls field) fun modifiers => ?_
          refine Reading.lockstep_readField ?_ field _
          split
          · exact .inClass hcls
          · exact .inObject hk

theorem lockstep_value (hk : p.stands h k) {cls cls' : Handle} (hcls : p.stands cls cls')
    (field : FieldId) :
    Lockstep (Agent.Paired p) Eq (value h cls field) (value k cls' field) :=
  lockstep_bind_eq (lockstep_see fun hv => by rw [hv.heap]) fun depth =>
    lockstep_bind (lockstep_touch fun hv => hv.newLocalRef hcls) fun hnear =>
      lockstep_valueFrom hk field depth hnear

theorem lockstep_values (id : ObjectId) (fields : List FieldId) :
    Lockstep (Agent.Paired p) Eq (values id fields) (values id fields) :=
  lockstep_withRef id _ fun hk => lockstep_withClassOf hk fun hcls =>
    lockstep_mapM_same (fun field => lockstep_value hk hcls field) fields

theorem lockstep_stringValue (id : ObjectId) :
    Lockstep (Agent.Paired p) Eq (stringValue id) (stringValue id) :=
  lockstep_withRef id _ fun hk =>
    lockstep_bind_eq (lockstep_native (Vm.lockstep_stringChars hk)) fun _ => lockstep_require _ _

theorem lockstep_arraySignature (hk : p.stands h k) :
    Lockstep (Agent.Paired p) Eq (arraySignature h) (arraySignature k) :=
  lockstep_withClassOf hk fun hcls => lockstep_bind_eq (lockstep_classSignature hcls) fun _ =>
    lockstep_bind_eq (lockstep_guard _ _) fun _ => lockstep_pure rfl

theorem lockstep_arrayLength (id : ObjectId) :
    Lockstep (Agent.Paired p) Eq (arrayLength id) (arrayLength id) :=
  lockstep_withRef id _ fun hk => lockstep_bind_eq (lockstep_arraySignature hk) fun _ =>
    lockstep_native (Vm.lockstep_arrayLength hk)

theorem lockstep_arrayValues (id : ObjectId) (first length : Int) :
    Lockstep (Agent.Paired p) Eq (arrayValues id first length) (arrayValues id first length) :=
  lockstep_withRef id _ fun hk =>
    lockstep_bind_eq (lockstep_arraySignature hk) fun _ =>
      lockstep_bind_eq (lockstep_native (Vm.lockstep_arrayLength hk)) fun _ =>
        lockstep_bind_eq (lockstep_guard _ _) fun _ =>
          lockstep_bind_eq (lockstep_guard _ _) fun _ => Reading.lockstep_readArray hk _ _ _

end Command.Object

namespace Command.Thread

open Tracking

theorem lockstep_withInfo (id : ObjectId) {x y : Vm.ThreadInfo → Command α}
    (hx : ∀ {info info'}, Vm.ThreadInfo.Paired p info info' →
      Lockstep (Agent.Paired p) Eq (x info) (y info')) :
    Lockstep (Agent.Paired p) Eq (withInfo id x) (withInfo id y) :=
  lockstep_withThread id fun hk =>
    lockstep_bind (lockstep_call (Vm.lockstep_threadInfo hk)) fun hinfo =>
      lockstep_withLocals (.cons hinfo.loader (.cons hinfo.group .nil)) (hx hinfo)

theorem lockstep_name (id : ObjectId) : Lockstep (Agent.Paired p) Eq (name id) (name id) :=
  lockstep_withInfo id fun hinfo => lockstep_pure hinfo.name.symm

theorem lockstep_group (id : ObjectId) : Lockstep (Agent.Paired p) Eq (group id) (group id) :=
  lockstep_withInfo id fun hinfo => lockstep_trackNew hinfo.group

theorem lockstep_state (id : ObjectId) : Lockstep (Agent.Paired p) Eq (state id) (state id) :=
  lockstep_withThread id fun hk => lockstep_ask fun hv => by
    rw [Vm.threadStateOf, Vm.threadStateOf, hv.threadOf hk]

theorem lockstep_status (id : ObjectId) : Lockstep (Agent.Paired p) Eq (status id) (status id) :=
  lockstep_bind_eq (lockstep_state id) fun _ => lockstep_pure rfl

theorem lockstep_suspendCount (id : ObjectId) :
    Lockstep (Agent.Paired p) Eq (suspendCount id) (suspendCount id) :=
  lockstep_bind_eq (lockstep_state id) fun _ => lockstep_pure rfl

theorem lockstep_frameCount (id : ObjectId) :
    Lockstep (Agent.Paired p) Eq (frameCount id) (frameCount id) :=
  lockstep_withThread id fun hk => lockstep_ask fun hv => hv.frameCount hk

theorem lockstep_frames (id : ObjectId) (start length : Int) :
    Lockstep (Agent.Paired p) Eq (frames id start length) (frames id start length) :=
  lockstep_withThread id fun hk =>
    lockstep_bind_eq (lockstep_ask fun hv => hv.frameCount hk) fun _ =>
      lockstep_bind_eq (lockstep_guard _ _) fun _ =>
        lockstep_bind_eq (lockstep_ofExcept _) fun _ =>
          lockstep_bind_eq (lockstep_ask fun hv => by
              rw [Vm.stackTrace, Vm.stackTrace, hv.threadOf hk]) fun _ =>
            lockstep_mapM_same (fun _ =>
              lockstep_bind_eq (Positions.lockstep_locate _ _) fun _ => lockstep_pure rfl) _

end Command.Thread

namespace Command.Frame

open Tracking

theorem lockstep_frameLocation (hk : p.stands h k) (depth : Int) :
    Lockstep (Agent.Paired p) Eq (ask fun vm => vm.frameLocation h depth)
      (ask fun vm => vm.frameLocation k depth) :=
  lockstep_ask fun hv => by rw [Vm.frameLocation, Vm.frameLocation, hv.threadOf hk]

theorem lockstep_value (hk : p.stands h k) (depth : Int) (index : CodeIndex)
    (entries : List LocalVariable) (slot : Int) :
    Lockstep (Agent.Paired p) Eq (value h depth index entries slot)
      (value k depth index entries slot) :=
  lockstep_bind_eq (lockstep_require _ _) fun _ => Reading.lockstep_readLocal hk depth slot _

theorem lockstep_values (thread : ObjectId) (frame : FrameId) (slots : List Int) :
    Lockstep (Agent.Paired p) Eq (values thread frame slots) (values thread frame slots) :=
  lockstep_withThread thread fun hk =>
    lockstep_bind_eq (lockstep_ofExcept _) fun depth =>
      lockstep_bind_eq (lockstep_frameLocation hk depth) fun _ =>
        lockstep_bind_eq (lockstep_ask_same fun _ _ _ => rfl) fun _ =>
          lockstep_mapM_same (fun slot => lockstep_value hk depth _ _ slot) slots

theorem lockstep_thisObject (thread : ObjectId) (frame : FrameId) :
    Lockstep (Agent.Paired p) Eq (thisObject thread frame) (thisObject thread frame) := by
  refine lockstep_withThread thread fun hk => ?_
  refine lockstep_bind_eq (lockstep_ofExcept _) fun depth => ?_
  refine lockstep_bind_eq (lockstep_frameLocation hk depth) fun location => ?_
  refine lockstep_bind_eq (lockstep_ask_same fun _ _ _ => rfl) fun modifiers => ?_
  refine lockstep_ite (lockstep_pure rfl) ?_
  refine lockstep_bind (lockstep_call (Vm.lockstep_getLocal hk depth 0 .object)) fun hraw => ?_
  cases hraw with
  | object hk =>
      exact lockstep_withLocal hk
        (lockstep_bind_eq (lockstep_trackObject hk .object) fun _ => lockstep_pure rfl)
  | primitive => exact lockstep_refuse _

end Command.Frame

namespace Command

theorem lockstep_done {x : Command Unit} (hx : Lockstep (Agent.Paired p) Eq x x) :
    Lockstep (Agent.Paired p) Eq (done x) (done x) :=
  lockstep_bind_eq hx fun _ => lockstep_pure rfl

theorem EventRequest.lockstep_set (kindCode : Nat) (policy : SuspendPolicy)
    (modifiers : List EventModifier) :
    Lockstep (Agent.Paired p) Eq (set kindCode policy modifiers) (set kindCode policy modifiers) :=
  lockstep_bind_eq (lockstep_ofExcept _) fun kind =>
    Registration.lockstep_register kind policy modifiers

theorem EventRequest.lockstep_clear (kindCode : Nat) (id : RequestId) :
    Lockstep (Agent.Paired p) Eq (clear kindCode id) (clear kindCode id) :=
  lockstep_bind_eq (lockstep_ofExcept _) fun kind => Registration.lockstep_clear kind id

/-- Every command of the client comes to the same. -/
theorem lockstep_ofClient (caller : NativeThread) (command : ClientCommand) :
    Lockstep (Agent.Paired p) Eq (ofClient caller command) (ofClient caller command) := by
  cases command with
  | version => exact lockstep_map_eq _ Machine.lockstep_version
  | allClasses => exact lockstep_map_eq _ (Machine.lockstep_classesWhere _)
  | classesBySignature => exact lockstep_map_eq _ (Machine.lockstep_classesWhere _)
  | allThreads => exact lockstep_map_eq _ Machine.lockstep_allThreads
  | topLevelThreadGroups => exact lockstep_map_eq _ Machine.lockstep_topLevelThreadGroups
  | suspend => exact lockstep_done (Suspension.lockstep_suspendAll caller)
  | resume => exact lockstep_done Suspension.lockstep_resumeAll
  | disposeObjects requests => exact lockstep_done (Machine.lockstep_disposeObjects requests)
  | capabilities => exact lockstep_look fun hp => by rw [hp.config]
  | signature refType => exact lockstep_map_eq _ (Class.lockstep_signature refType)
  | signatureWithGeneric refType =>
      exact lockstep_bind_eq (Class.lockstep_signatureWithGeneric refType) fun _ =>
        lockstep_pure rfl
  | modifiers refType => exact lockstep_map_eq _ (Class.lockstep_modifiers refType)
  | fields refType => exact lockstep_map_eq _ (Class.lockstep_fields refType)
  | methods refType => exact lockstep_map_eq _ (Class.lockstep_methods refType)
  | staticValues refType fields => exact lockstep_map_eq _ (Class.lockstep_values refType fields)
  | sourceFile refType => exact lockstep_map_eq _ (Class.lockstep_sourceFile refType)
  | classStatus refType => exact lockstep_map_eq _ (Class.lockstep_status refType)
  | interfaces refType => exact lockstep_map_eq _ (Class.lockstep_interfaces refType)
  | lineTable refType method => exact lockstep_map_eq _ (Method.lockstep_lineTable refType method)
  | variableTable refType method =>
      exact lockstep_map_eq _ (Method.lockstep_variableTable refType method)
  | bytecodes refType method => exact lockstep_map_eq _ (Method.lockstep_bytecodes refType method)
  | referenceType object => exact lockstep_map_eq _ (Object.lockstep_referenceType object)
  | objectValues object fields => exact lockstep_map_eq _ (Object.lockstep_values object fields)
  | stringValue string => exact lockstep_map_eq _ (Object.lockstep_stringValue string)
  | arrayLength array => exact lockstep_map_eq _ (Object.lockstep_arrayLength array)
  | arrayValues array first length =>
      exact lockstep_map_eq _ (Object.lockstep_arrayValues array first length)
  | threadName thread => exact lockstep_map_eq _ (Thread.lockstep_name thread)
  | suspendThread thread => exact lockstep_done (Suspension.lockstep_suspend caller thread)
  | resumeThread thread => exact lockstep_done (Suspension.lockstep_resume thread)
  | threadStatus thread =>
      exact lockstep_bind_eq (Thread.lockstep_status thread) fun _ => lockstep_pure rfl
  | threadGroup thread => exact lockstep_map_eq _ (Thread.lockstep_group thread)
  | frames thread start length =>
      exact lockstep_map_eq _ (Thread.lockstep_frames thread start length)
  | frameCount thread => exact lockstep_map_eq _ (Thread.lockstep_frameCount thread)
  | suspendCount thread => exact lockstep_map_eq _ (Thread.lockstep_suspendCount thread)
  | frameValues thread frame slots =>
      exact lockstep_map_eq _ (Frame.lockstep_values thread frame slots)
  | thisObject thread frame => exact lockstep_map_eq _ (Frame.lockstep_thisObject thread frame)
  | setEvent kindCode policy modifiers =>
      exact lockstep_map_eq _ (EventRequest.lockstep_set kindCode policy modifiers)
  | clearEvent kindCode request =>
      exact lockstep_done (EventRequest.lockstep_clear kindCode request)
  | setBreakpoint location policy =>
      exact lockstep_map_eq _ (EventRequest.lockstep_set _ policy _)
  | clearBreakpoint request => exact lockstep_done (EventRequest.lockstep_clear _ request)
  | clearAllBreakpoints => exact lockstep_done Registration.lockstep_clearBreakpoints
  | reserved command => exact lockstep_refuse _

end Command

/-! ### What a callback says -/

/-- The same callback with references that stand for each other. -/
inductive Callback.Paired (p : Pairing) : Callback Handle → Callback Handle → Prop where
  | intro {ρ : Type} (c : Callback ρ) {thread thread' other other' : Handle}
      (ht : p.stands thread thread') (ho : p.stands other other') :
      Paired p (c.withObjects thread other) (c.withObjects thread' other')

theorem Callback.Paired.kind {c c' : Callback Handle} (hc : c.Paired p c') :
    c'.kind = c.kind := by
  obtain ⟨c, -, -⟩ := hc
  cases c <;> rfl

namespace Capture

open Tracking

theorem lockstep_targetOf (hk : p.stands h k) :
    Lockstep (Agent.Paired p) Eq (see fun vm => vm.target? h) (see fun vm => vm.target? k) :=
  lockstep_see fun hv => (hv.target? hk).symm

theorem lockstep_scene (hk : p.stands h k) :
    Lockstep (Agent.Paired p) Eq (scene h) (scene k) :=
  lockstep_bind_eq (lockstep_trackNew hk) fun _ =>
    lockstep_bind_eq (lockstep_targetOf hk) fun _ => lockstep_pure rfl

theorem lockstep_site (method : MethodId) (index : CodeIndex) :
    Lockstep (Agent.Paired p) Eq (site method index) (site method index) :=
  Positions.lockstep_withDeclaringClass method fun hk =>
    lockstep_bind_eq (Positions.lockstep_locationIn hk method index) fun _ =>
      lockstep_bind_eq (lockstep_classSignature hk) fun _ =>
        lockstep_bind_eq (lockstep_targetOf hk) fun _ => lockstep_pure rfl

theorem lockstep_runningReceiver (hk : p.stands h k) (method : MethodId) :
    Lockstep (Agent.Paired p) Eq (runningReceiver h method) (runningReceiver k method) := by
  refine lockstep_bind_eq (lockstep_tryAsk fun hv =>
    hv.same (f := fun vm => vm.methodModifiers method) fun _ _ _ => rfl) fun modifiers => ?_
  cases modifiers with
  | error => exact lockstep_pure rfl
  | ok modifiers =>
      refine lockstep_ite (lockstep_pure rfl) ?_
      refine lockstep_bind (lockstep_tryCall (Vm.lockstep_getLocal hk 0 0 .object)) fun hraw => ?_
      cases hraw with
      | error => exact lockstep_pure rfl
      | ok hraw =>
          cases hraw with
          | primitive => exact lockstep_pure rfl
          | object hk => exact lockstep_withLocal hk (lockstep_targetOf hk)

theorem lockstep_receiver (wanted : Bool) (hk : p.stands h k) (method : MethodId) :
    Lockstep (Agent.Paired p) Eq (receiver wanted h method) (receiver wanted k method) :=
  lockstep_ite (lockstep_runningReceiver hk method) (lockstep_pure rfl)

theorem lockstep_thrownClass (hk : p.stands h k) :
    Lockstep (Agent.Paired p) Eq (thrownClass h) (thrownClass k) :=
  lockstep_bind (lockstep_native (Vm.lockstep_objectClassRef hk)) fun hcls =>
    lockstep_withLocal hcls
      (lockstep_bind_eq (lockstep_requireRef hcls _) fun _ => lockstep_targetOf hcls)

/-- What filters look at is the same. -/
theorem lockstep_capture (wantsReceiver : Bool) {c c' : Callback Handle} (hc : c.Paired p c') :
    Lockstep (Agent.Paired p) Eq (capture wantsReceiver c) (capture wantsReceiver c') := by
  obtain ⟨c, ht, ho⟩ := hc
  cases c with
  | vmDeath => exact lockstep_pure rfl
  | threadStart | threadEnd =>
      exact lockstep_bind_eq (lockstep_scene ht) fun _ => lockstep_pure rfl
  | classPrepare =>
      refine lockstep_bind_eq (lockstep_scene ht) fun scene => ?_
      refine lockstep_bind (lockstep_touch fun hv => hv.newLocalRef ho) fun hcls => ?_
      refine lockstep_withLocal hcls (lockstep_bind_eq (lockstep_requireRef hcls _) fun _ => ?_)
      refine lockstep_bind_eq (lockstep_trackClass hcls) fun _ => ?_
      refine lockstep_bind_eq (lockstep_classSignature hcls) fun _ => ?_
      refine lockstep_bind_eq (Machine.lockstep_classStatus hcls) fun _ => ?_
      exact lockstep_bind_eq (lockstep_targetOf hcls) fun _ => lockstep_pure rfl
  | breakpoint | methodExit =>
      exact lockstep_bind_eq (lockstep_scene ht) fun _ =>
        lockstep_bind_eq (lockstep_site _ _) fun _ =>
          lockstep_bind_eq (lockstep_receiver _ ht _) fun _ => lockstep_pure rfl
  | singleStep =>
      refine lockstep_bind_eq (lockstep_scene ht) fun scene => ?_
      refine lockstep_bind_eq (lockstep_site _ _) fun spot => ?_
      refine lockstep_bind_eq (lockstep_see fun hv => by rw [hv.frameCount ht]) fun depth => ?_
      refine lockstep_bind_eq (lockstep_see_same fun _ _ _ => rfl) fun line => ?_
      exact lockstep_bind_eq (lockstep_receiver _ ht _) fun _ => lockstep_pure rfl
  | exception _ method location _ handler =>
      refine lockstep_bind_eq (lockstep_scene ht) fun scene => ?_
      refine lockstep_bind_eq (lockstep_site _ _) fun spot => ?_
      refine lockstep_bind_eq (lockstep_thrownClass ho) fun exceptionClass => ?_
      refine lockstep_bind_eq (lockstep_trackObject ho .object) fun exception => ?_
      cases handler with
      | none =>
          exact lockstep_bind_eq (lockstep_pure rfl) fun _ =>
            lockstep_bind_eq (lockstep_receiver _ ht _) fun _ => lockstep_pure rfl
      | some handler =>
          exact lockstep_bind_eq (lockstep_map_eq some (lockstep_site _ _)) fun _ =>
            lockstep_bind_eq (lockstep_receiver _ ht _) fun _ => lockstep_pure rfl
  | methodEntry =>
      refine lockstep_bind_eq (lockstep_scene ht) fun scene => ?_
      refine lockstep_bind_eq (lockstep_ask_same fun _ _ _ => rfl) fun start => ?_
      refine lockstep_bind_eq (lockstep_site _ _) fun spot => ?_
      exact lockstep_bind_eq (lockstep_receiver _ ht _) fun _ => lockstep_pure rfl

end Capture

/-! ### Delivery -/

namespace Agent.Paired

theorem suspendFor (hp : a.Paired p b) (target : Option SuspendTarget) :
    (Delivery.suspendFor target a).Paired p (Delivery.suspendFor target b) := by
  cases target with
  | none => exact hp
  | some target =>
      cases target with
      | thread thread =>
          exact (hp.answer (Suspension.lockstep_suspend .delivery thread) .delivery).2
      | all => exact (hp.answer (Suspension.lockstep_suspendAll .delivery) .delivery).2

/-- The same event set is sent. -/
theorem send (hp : a.Paired p b) (fired : Fired) :
    (Delivery.send fired a).Paired p (Delivery.send fired b) := by
  rw [Delivery.send, Delivery.send, hp.session]
  split
  · exact hp
  · have hstopped := hp.suspendFor fired.suspend
    exact hstopped.setSession (congrArg (Option.map (Session.receive fired.events)) hstopped.session)

end Agent.Paired

end DebugAgent
