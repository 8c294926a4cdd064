import DebugAgent.Proofs.Counts

/-!
# What answers hand out

An answer names objects by their identifiers: as such, as the class of a location or as the data of
a value.  Every command but the one that gives identifiers back counts each of them as often as its
answer names it, and no other.
-/

namespace DebugAgent

open DebugAgent.Action Command Tracking

/-! ### Identifiers in answers -/

/-- The identifier of the object that a value refers to. -/
def Value.ids (v : Value) : List ObjectId := v.objectId?.toList

/-- The identifiers in an answer, as often as they occur. -/
def Reply.ids : Reply → List ObjectId
  | .classes records => records.map fun record => record.typeId.typeId
  | .objects named => named
  | .object id => [id]
  | .values vs => vs.flatMap Value.ids
  | .typeId tagged => [tagged.typeId]
  | .frames records => records.map fun frame => frame.location.classId
  | .receiver tagged => (tagged.map TaggedObjectId.objectId).toList
  | _ => []

variable {α β : Type} {a b : Agent} {ids owed : List ObjectId}

/-! ### Commands that hand out nothing -/

namespace Command

theorem keepsIds_mapM {f : α → Command β} (hf : ∀ r, KeepsIds (f r)) (xs : List α) :
    KeepsIds (xs.mapM f) := by
  induction xs with
  | nil => exact keepsIds_pure []
  | cons x xs ih =>
      rw [List.mapM_cons]
      exact keepsIds_bind (hf x) fun _ => keepsIds_bind ih fun _ => keepsIds_pure _

theorem keepsIds_forM {f : α → Command PUnit} (hf : ∀ r, KeepsIds (f r)) (xs : List α) :
    KeepsIds (xs.forM f) := by
  induction xs with
  | nil => exact keepsIds_pure ()
  | cons x xs ih => exact keepsIds_bind (hf x) fun _ => ih

theorem keepsIds_ite {c : Prop} [Decidable c] {x y : Command α} (hx : KeepsIds x)
    (hy : KeepsIds y) : KeepsIds (if c then x else y) := by
  split
  · exact hx
  · exact hy

theorem keepsIds_refuse (cause : ProtocolError) : KeepsIds (refuse cause : Command α) :=
  fun _ => rfl

theorem keepsIds_require (cause : ProtocolError) (r? : Option α) :
    KeepsIds (Action.require cause r? : Command α) := by
  cases r? <;> exact fun _ => rfl

theorem keepsIds_attempt {x : Command α} (hx : KeepsIds x) :
    KeepsIds (x.attempt : Command (Except ProtocolError α)) := by
  intro a
  rw [perform_attempt_snd]
  exact hx a

theorem keepsIds_withRef (id : ObjectId) (cause : ProtocolError) {x : Handle → Command α}
    (hx : ∀ h, KeepsIds (x h)) : KeepsIds (withRef id cause x) :=
  keepsIds_bind (keepsIds_acquire id) fun h => keepsIds_withLocals [h] <|
    keepsIds_bind (keepsIds_guard _ _) fun _ => hx h

end Command

namespace Registration

theorem keepsIds_setRequests {f : Agent → RequestTable} :
    KeepsIds (change (fun a => { a with requests := f a }) : Command Unit) := fun _ => rfl

theorem keepsIds_filterOf (kind : EventKind) (modifier : EventModifier) :
    KeepsIds (filterOf kind modifier) := by
  apply keepsIds_bind (keepsIds_guard _ _)
  intro _
  cases modifier with
  | count times => exact keepsIds_bind (keepsIds_guard _ _) fun _ => keepsIds_pure _
  | threadOnly thread => exact keepsIds_withThread thread fun _ => keepsIds_pure _
  | classOnly refType => exact keepsIds_withRef _ _ fun _ => keepsIds_pure _
  | classMatch pattern | classExclude pattern => exact keepsIds_pure _
  | locationOnly location =>
      exact keepsIds_bind (keepsIds_inspect _) fun _ => keepsIds_withRef _ _ fun _ =>
        keepsIds_pure _
  | exceptionOnly refType caught uncaught =>
      apply keepsIds_ite
      · exact keepsIds_bind (keepsIds_withRef _ _ fun _ => keepsIds_pure _) fun _ =>
          keepsIds_pure _
      · exact keepsIds_pure _
  | fieldOnly refType field => exact keepsIds_refuse _
  | step thread size depth =>
      refine keepsIds_withThread thread fun h => keepsIds_bind ?_ fun _ => keepsIds_pure _
      exact keepsIds_bind (keepsIds_inspect _) fun _ => keepsIds_bind (keepsIds_inspect _) fun _ =>
        keepsIds_bind (keepsIds_look _) fun _ => keepsIds_pure _
  | instanceOnly object => exact keepsIds_withRef _ _ fun _ => keepsIds_pure _

theorem keepsIds_holdThread (thread : Option ObjectId) : KeepsIds (holdThread thread) := by
  cases thread with
  | none => exact keepsIds_pure none
  | some id =>
      exact keepsIds_withThread id fun h => keepsIds_bind (keepsIds_touch _) fun _ =>
        keepsIds_bind (keepsIds_guard _ _) fun _ => keepsIds_pure _

theorem keepsIds_freeThread (thread : Option Handle) : KeepsIds (freeThread thread) := by
  cases thread with
  | none => exact keepsIds_pure ()
  | some global => exact keepsIds_adjust _

theorem keepsIds_enable (key : NotificationKey) : KeepsIds (enable key) := by
  apply keepsIds_bind (keepsIds_look _)
  intro notifications
  split
  · exact keepsIds_setRequests
  · refine keepsIds_bind (keepsIds_holdThread key.2) fun thread => ?_
    refine keepsIds_bind (keepsIds_tryCall _) fun outcome => ?_
    cases outcome with
    | ok _ => exact keepsIds_setRequests
    | error e => exact keepsIds_bind (keepsIds_freeThread thread) fun _ => keepsIds_refuse _

theorem keepsIds_disable (key : NotificationKey) : KeepsIds (disable key) := by
  apply keepsIds_bind (keepsIds_look _)
  intro notifications
  split
  · exact keepsIds_pure ()
  · apply keepsIds_ite keepsIds_setRequests
    refine keepsIds_bind keepsIds_setRequests fun _ => ?_
    exact keepsIds_bind (keepsIds_tryCall _) fun _ => keepsIds_freeThread _

theorem keepsIds_holdBreakpoint (position : MethodId × CodeIndex) :
    KeepsIds (holdBreakpoint position) := by
  apply keepsIds_bind (keepsIds_look _)
  intro breakpoints
  split
  · exact keepsIds_setRequests
  · exact keepsIds_bind (keepsIds_call _) fun _ => keepsIds_setRequests

theorem keepsIds_releaseBreakpoint (position : MethodId × CodeIndex) :
    KeepsIds (releaseBreakpoint position) := by
  apply keepsIds_bind (keepsIds_look _)
  intro breakpoints
  split
  · exact keepsIds_pure ()
  · exact fun _ => rfl
  · exact keepsIds_bind keepsIds_setRequests fun _ =>
      keepsIds_bind (keepsIds_tryCall _) fun _ => keepsIds_pure ()
  · exact keepsIds_setRequests

theorem keepsIds_acquire (registration : Registration) : KeepsIds (acquire registration) := by
  obtain ⟨position, key⟩ := registration
  have henable := keepsIds_attempt (keepsIds_enable key)
  cases position with
  | none =>
      refine keepsIds_bind henable fun outcome => ?_
      cases outcome with
      | ok _ => exact keepsIds_pure ()
      | error cause => exact keepsIds_refuse cause
  | some position =>
      refine keepsIds_bind (keepsIds_holdBreakpoint position) fun _ =>
        keepsIds_bind henable fun outcome => ?_
      cases outcome with
      | ok _ => exact keepsIds_pure ()
      | error cause =>
          exact keepsIds_bind (keepsIds_releaseBreakpoint position) fun _ => keepsIds_refuse cause

theorem keepsIds_register (kind : EventKind) (policy : SuspendPolicy)
    (modifiers : List EventModifier) : KeepsIds (register kind policy modifiers) := by
  refine keepsIds_bind (keepsIds_guard _ _) fun _ => ?_
  refine keepsIds_bind (keepsIds_mapM (keepsIds_filterOf kind) modifiers) fun filters => ?_
  refine keepsIds_bind (keepsIds_inspect _) fun registration => ?_
  refine keepsIds_bind (keepsIds_acquire registration) fun _ => ?_
  exact keepsIds_bind (keepsIds_look _) fun _ => keepsIds_bind keepsIds_setRequests fun _ =>
    keepsIds_pure _

theorem keepsIds_remove (request : Request) : KeepsIds (remove request) := by
  apply keepsIds_bind keepsIds_setRequests
  intro _
  obtain ⟨_, _, _, _, position, key⟩ := request
  cases position with
  | none => exact keepsIds_disable key
  | some position =>
      exact keepsIds_bind (keepsIds_releaseBreakpoint position) fun _ => keepsIds_disable key

theorem keepsIds_clear (kind : EventKind) (id : RequestId) : KeepsIds (clear kind id) := by
  apply keepsIds_bind (keepsIds_look _)
  intro requests
  split
  · exact keepsIds_bind (keepsIds_guard _ _) fun _ => keepsIds_remove _
  · exact keepsIds_refuse _

theorem keepsIds_clearBreakpoints : KeepsIds clearBreakpoints :=
  keepsIds_bind (keepsIds_look _) fun _ => keepsIds_forM keepsIds_remove _

end Registration

/-- Opening the session hands out no identifier. -/
theorem keepsIds_opening (canDeliver : Bool) : KeepsIds (Agent.opening canDeliver) := by
  refine keepsIds_bind (keepsIds_look _) fun _ => keepsIds_bind (keepsIds_guard _ _) fun _ => ?_
  refine keepsIds_bind (keepsIds_guard _ _) fun _ => ?_
  exact keepsIds_bind (Registration.keepsIds_enable _) fun _ _ => rfl

/-! ### Commands that hand out what they answer -/

/-- A command hands out the identifiers in its result, whatever has been handed out before. -/
def Hands (x : Command α) (ids : α → List ObjectId) : Prop :=
  ∀ owed, Tallies owed x fun r => ids r ++ owed

namespace Hands

variable {ids : α → List ObjectId} {last : β → List ObjectId}

theorem ret {r : α} (hnone : ids r = []) : Hands (pure r) ids :=
  fun _ => .ret (by rw [hnone]; exact .refl _)

/-- A command that hands out nothing, and names nothing in its result. -/
theorem of_returns {x : Command α} (hx : KeepsIds x) (hnone : x.Returns fun r => ids r = []) :
    Hands x ids := by
  intro owed first a hcounted
  have htracker := hx a
  cases hperform : x.perform a with
  | mk result b =>
      rw [hperform] at htracker
      have hlater := hcounted.of_tracker_eq htracker
      cases result with
      | ok r =>
          change Counted (ids r ++ owed) first b
          rw [hnone a r b hperform]
          exact hlater
      | error stop => exact ⟨owed, hlater⟩

theorem refuse (cause : ProtocolError) : Hands (Action.refuse cause) ids :=
  fun owed _ _ hcounted => ⟨owed, hcounted⟩

theorem ofExcept {r : Except ProtocolError α} (hnone : ∀ v, r = .ok v → ids v = []) :
    Hands (Action.ofExcept r) ids := by
  cases r with
  | error cause => exact refuse cause
  | ok v => exact ret (hnone v rfl)

theorem after {x : Command α} {f : α → Command β} (hx : KeepsIds x) (hf : ∀ r, Hands (f r) last) :
    Hands (x >>= f) last :=
  fun owed => .after hx fun r => hf r owed

theorem map (g : α → β) {x : Command α} (hx : Hands x fun r => last (g r)) :
    Hands (g <$> x) last := by
  intro owed
  rw [map_eq_pure_bind]
  exact (hx owed).bind fun _ => .ret (.refl _)

theorem withLocals (hs : List Handle) {x : Command α} (hx : Hands x ids) :
    Hands (Command.withLocals hs x) ids :=
  fun owed => (hx owed).withLocals hs

theorem ite {c : Prop} [Decidable c] {x y : Command α} (hx : Hands x ids) (hy : Hands y ids) :
    Hands (if c then x else y) ids := by
  split
  · exact hx
  · exact hy

/-- What each of several commands hands out is handed out in all. -/
theorem mapM {f : α → Command β} (hf : ∀ r, Hands (f r) last) (xs : List α) :
    Hands (xs.mapM f) fun rs => rs.flatMap last := by
  induction xs with
  | nil => exact ret rfl
  | cons x xs ih =>
      intro owed
      rw [List.mapM_cons]
      refine (hf x owed).bind fun r => (ih (last r ++ owed)).bind fun rs => .ret ?_
      dsimp only
      rw [List.flatMap_cons, ← List.append_assoc]
      exact List.perm_append_comm.append_right owed

/-- What all of several commands result in is handed out. -/
theorem mapM_self {f : α → Command ObjectId} (hf : ∀ r, Hands (f r) fun id => [id])
    (xs : List α) : Hands (xs.mapM f) fun ids => ids := by
  have hall := mapM hf xs
  simpa only [List.flatMap_singleton'] using hall

theorem withRef (id : ObjectId) (cause : ProtocolError) {x : Handle → Command α}
    (hx : ∀ h, Hands (x h) ids) : Hands (Tracking.withRef id cause x) ids :=
  after (keepsIds_acquire id) fun h => withLocals [h] <| after (keepsIds_guard _ _) fun _ => hx h

theorem withThread (id : ObjectId) {x : Handle → Command α} (hx : ∀ h, Hands (x h) ids) :
    Hands (Tracking.withThread id x) ids :=
  after (keepsIds_acquire id) fun h => withLocals [h] <|
    after (keepsIds_look _) fun _ => after (keepsIds_guard _ _) fun _ => hx h

theorem trackNew (h : Handle) : Hands (Tracking.trackNew h) fun id => [id] :=
  fun owed => .trackNew owed h

theorem trackObject (h : Handle) (declared : TypeTag) :
    Hands (Tracking.trackObject h declared) fun object => [object.objectId] :=
  fun owed => .trackObject owed h declared

theorem trackClass (h : Handle) : Hands (Tracking.trackClass h) fun type => [type.typeId] :=
  fun owed => .trackClass owed h

end Hands

/-! ### Values -/

namespace Reading

/-- A primitive value refers to no object. -/
theorem ids_primitiveValue {tag : TypeTag} {v : Primitive} {value : Value}
    (hvalue : primitiveValue tag v = .ok value) : value.ids = [] := by
  have hdata : ∀ {data}, narrow tag v = .ok data → (⟨tag, data⟩ : Value).ids = [] := by
    intro data hnarrow
    simp only [narrow] at hnarrow
    split at hnarrow
    iterate 4
      · cases hnarrow
        rfl
    · split at hnarrow
      · cases hnarrow
        cases v <;> rfl
      · cases hnarrow
  rw [primitiveValue] at hvalue
  cases hnarrow : narrow tag v with
  | error cause =>
      rw [hnarrow] at hvalue
      cases hvalue
  | ok data =>
      rw [hnarrow] at hvalue
      cases hvalue
      exact hdata hnarrow

theorem hands_wrap (tag : TypeTag) (raw : RawValue) : Hands (wrap tag raw) Value.ids := by
  cases raw with
  | primitive v => exact .ofExcept fun _ => ids_primitiveValue
  | object h =>
      refine .withLocals [h] fun owed => ?_
      exact (Tallies.trackObject owed h tag).bind fun _ => .ret (.refl _)

theorem keepsIds_clearing {x : Command α} (hx : KeepsIds x) : KeepsIds (clearing x) :=
  keepsIds_bind hx fun _ => keepsIds_bind (keepsIds_adjust _) fun _ => keepsIds_pure _

theorem hands_readField (owner : FieldOwner) (field : FieldId) (signature : String) :
    Hands (readField owner field signature) Value.ids := by
  refine .after (keepsIds_inspect _) fun tag => .after (keepsIds_inspect _) fun kind => ?_
  cases owner with
  | inClass cls => exact .after (keepsIds_clearing (keepsIds_touch _)) (hands_wrap tag)
  | inObject object => exact .after (keepsIds_clearing (keepsIds_native _)) (hands_wrap tag)

theorem hands_readElement (array : Handle) (tag : TypeTag) (index : Int) :
    Hands (readElement array tag index) Value.ids :=
  .after (keepsIds_clearing (keepsIds_native _)) fun _ => hands_wrap tag _

theorem ids_region (tag : TypeTag) {region : List RawValue} {values : List Value}
    (hvalues : region.mapM (regionValue tag) = .ok values) : values.flatMap Value.ids = [] := by
  induction region generalizing values with
  | nil =>
      cases hvalues
      rfl
  | cons raw region ih =>
      rw [List.mapM_cons] at hvalues
      cases hfirst : regionValue tag raw with
      | error cause =>
          rw [hfirst] at hvalues
          cases hvalues
      | ok first =>
          cases hrest : region.mapM (regionValue tag) with
          | error cause =>
              rw [hfirst, hrest] at hvalues
              cases hvalues
          | ok rest =>
              rw [hfirst, hrest] at hvalues
              cases hvalues
              rw [List.flatMap_cons, ih hrest, List.append_nil]
              cases raw with
              | primitive v => exact ids_primitiveValue hfirst
              | object h => cases hfirst

theorem hands_readArray (array : Handle) (signature : String) (first length : Int) :
    Hands (readArray array signature first length) fun values => values.flatMap Value.ids := by
  refine .after (keepsIds_inspect _) fun component => .after (keepsIds_inspect _) fun tag => ?_
  refine .ite (.mapM (fun _ => hands_readElement array tag _) _) ?_
  refine .after (keepsIds_inspect _) fun kind => ?_
  refine .after (keepsIds_clearing (keepsIds_native _)) fun region => ?_
  exact .after (keepsIds_guard _ _) fun _ => .ofExcept fun _ => ids_region tag

theorem hands_readLocal (thread : Handle) (depth slot : Int) (signature : String) :
    Hands (readLocal thread depth slot signature) Value.ids :=
  .after (keepsIds_inspect _) fun tag => .after (keepsIds_inspect _) fun _ =>
    .after (keepsIds_call _) fun _ => hands_wrap tag _

end Reading

namespace Positions

theorem hands_locate (method : MethodId) (index : CodeIndex) :
    Hands (locate method index) fun location => [location.classId] := by
  refine .after (keepsIds_call _) fun cls => .withLocals [cls] ?_
  refine .after (keepsIds_guard _ _) fun _ owed => ?_
  exact (Tallies.trackClass owed cls).bind fun _ => .ret (.refl _)

end Positions

/-! ### Commands -/

namespace Command

namespace Machine

theorem hands_classRecord? (wanted : String → Bool) (cls : Handle) :
    Hands (classRecord? wanted cls) fun record => (record.map fun r => r.typeId.typeId).toList := by
  refine .after (keepsIds_inspect _) fun signature => .ite (fun owed => ?_) (.ret rfl)
  refine (Tallies.trackClass owed cls).bind fun _ => ?_
  exact .after (keepsIds_inspect _) fun _ => .ret (.refl _)

theorem hands_classesWhere (wanted : String → Bool) :
    Hands (classesWhere wanted) fun records => records.map fun r => r.typeId.typeId := by
  refine .after (keepsIds_call _) fun classes => .withLocals classes fun owed => ?_
  refine (Hands.mapM (hands_classRecord? wanted) classes owed).bind fun records => .ret ?_
  refine .of_eq (congrArg (· ++ owed) ?_)
  induction records with
  | nil => rfl
  | cons record records ih => cases record <;> simp [ih]

theorem hands_allThreads : Hands allThreads fun ids => ids :=
  .after (keepsIds_call _) fun threads => .withLocals threads (.mapM_self .trackNew threads)

theorem hands_topLevelThreadGroups : Hands topLevelThreadGroups fun ids => ids :=
  .after (keepsIds_call _) fun groups => .withLocals groups (.mapM_self .trackNew groups)

end Machine

namespace Class

theorem keepsIds_fields (id : ObjectId) : KeepsIds (fields id) :=
  keepsIds_withRef _ _ fun _ => keepsIds_bind (keepsIds_inspect _) fun names =>
    keepsIds_mapM (fun _ => keepsIds_bind (keepsIds_inspect _) fun _ =>
      keepsIds_bind (keepsIds_inspect _) fun _ => keepsIds_pure _) names

theorem keepsIds_methods (id : ObjectId) : KeepsIds (methods id) :=
  keepsIds_withRef _ _ fun _ => keepsIds_bind (keepsIds_inspect _) fun names =>
    keepsIds_mapM (fun _ => keepsIds_bind (keepsIds_inspect _) fun _ =>
      keepsIds_bind (keepsIds_inspect _) fun _ => keepsIds_pure _) names

theorem hands_values (id : ObjectId) (names : List FieldId) :
    Hands (values id names) fun values => values.flatMap Value.ids := by
  refine .withRef _ _ fun cls => .mapM (fun field => ?_) names
  refine .after (keepsIds_inspect _) fun name => .after (keepsIds_inspect _) fun _ => ?_
  exact .after (keepsIds_guard _ _) fun _ => Reading.hands_readField _ field name.2

theorem hands_interfaces (id : ObjectId) : Hands (interfaces id) fun ids => ids :=
  .withRef _ _ fun _ => .after (keepsIds_call _) fun interfaces => .withLocals interfaces <|
    .mapM_self (fun h => .map TaggedTypeId.typeId (.trackClass h)) interfaces

end Class

namespace Method

theorem keepsIds_withMethod (refType : ObjectId) (method : MethodId) {x : Command α}
    (hx : KeepsIds x) : KeepsIds (withMethod refType method x) :=
  keepsIds_withRef _ _ fun _ => keepsIds_bind (keepsIds_inspect _) fun _ => hx

theorem keepsIds_lineTable (refType : ObjectId) (method : MethodId) :
    KeepsIds (lineTable refType method) :=
  keepsIds_withMethod refType method <| keepsIds_bind (keepsIds_inspect _) fun _ =>
    keepsIds_bind (keepsIds_inspect _) fun _ => keepsIds_pure _

theorem keepsIds_variableTable (refType : ObjectId) (method : MethodId) :
    KeepsIds (variableTable refType method) :=
  keepsIds_withMethod refType method <| keepsIds_bind (keepsIds_inspect _) fun _ =>
    keepsIds_bind (keepsIds_inspect _) fun _ => keepsIds_bind (keepsIds_inspect _) fun _ =>
      keepsIds_bind (keepsIds_inspect _) fun _ => keepsIds_pure _

end Method

namespace Object

theorem hands_withClassOf {ids : α → List ObjectId} (object : Handle) {x : Handle → Command α}
    (hx : ∀ h, Hands (x h) ids) : Hands (withClassOf object x) ids :=
  .after (keepsIds_native _) fun cls => .withLocals [cls] <|
    .after (keepsIds_guard _ _) fun _ => hx cls

theorem hands_valueFrom (object : Handle) (field : FieldId) (depth : Nat) (cls : Handle) :
    Hands (valueFrom object field depth cls) Value.ids := by
  induction depth generalizing cls with
  | zero => exact .withLocals [cls] (.refuse _)
  | succ depth ih =>
      refine .withLocals [cls] (.after (keepsIds_guard _ _) fun _ => ?_)
      refine .after (keepsIds_look _) fun name? => ?_
      cases name? with
      | ok name =>
          exact .after (keepsIds_inspect _) fun _ => Reading.hands_readField _ field name.2
      | error _ => exact .after (keepsIds_touch _) ih

theorem hands_values (id : ObjectId) (names : List FieldId) :
    Hands (values id names) fun values => values.flatMap Value.ids :=
  .withRef _ _ fun object => hands_withClassOf object fun _ => .mapM (fun field =>
    .after (keepsIds_look _) fun depth => .after (keepsIds_touch _) fun h =>
      hands_valueFrom object field depth h) names

theorem keepsIds_arraySignature (array : Handle) : KeepsIds (arraySignature array) :=
  keepsIds_bind (keepsIds_native _) fun cls => keepsIds_withLocals [cls] <|
    keepsIds_bind (keepsIds_guard _ _) fun _ => keepsIds_bind (keepsIds_inspect _) fun _ =>
      keepsIds_bind (keepsIds_guard _ _) fun _ => keepsIds_pure _

theorem hands_arrayValues (id : ObjectId) (first length : Int) :
    Hands (arrayValues id first length) fun values => values.flatMap Value.ids :=
  .withRef _ _ fun array => .after (keepsIds_arraySignature array) fun signature =>
    .after (keepsIds_native _) fun _ => .after (keepsIds_guard _ _) fun _ =>
      .after (keepsIds_guard _ _) fun _ => Reading.hands_readArray array signature first length

end Object

namespace Thread

theorem hands_group (id : ObjectId) : Hands (group id) fun id => [id] :=
  .withThread id fun _ => .after (keepsIds_call _) fun info => .withLocals _ (.trackNew info.group)

theorem hands_frames (id : ObjectId) (start length : Int) :
    Hands (frames id start length) fun frames =>
      frames.map fun frame => frame.location.classId := by
  refine .withThread id fun thread => .after (keepsIds_inspect _) fun _ => ?_
  refine .after (keepsIds_guard _ _) fun _ => .after (keepsIds_inspect _) fun _ => ?_
  refine .after (keepsIds_inspect _) fun trace => ?_
  have hframe : ∀ entry : (MethodId × CodeIndex) × Nat,
      Hands (do return ⟨start.toNat + entry.2, ← Positions.locate entry.1.1 entry.1.2⟩)
        fun frame : FrameInfo => [frame.location.classId] := fun entry owed =>
    (Positions.hands_locate entry.1.1 entry.1.2 owed).bind fun _ => .ret (.refl _)
  have hall := Hands.mapM hframe trace.zipIdx
  simpa only [List.map_eq_flatMap] using hall

end Thread

namespace Frame

theorem hands_value (thread : Handle) (depth : Int) (index : CodeIndex)
    (entries : List LocalVariable) (slot : Int) :
    Hands (value thread depth index entries slot) Value.ids :=
  .after (keepsIds_require _ _) fun entry =>
    Reading.hands_readLocal thread depth slot entry.signature

theorem hands_values (thread : ObjectId) (frame : FrameId) (slots : List Int) :
    Hands (values thread frame slots) fun values => values.flatMap Value.ids := by
  refine .withThread thread fun h => .after (keepsIds_inspect _) fun depth => ?_
  refine .after (keepsIds_inspect _) fun position => .after (keepsIds_inspect _) fun entries => ?_
  exact .mapM (hands_value h depth position.2 entries) slots

theorem hands_thisObject (thread : ObjectId) (frame : FrameId) :
    Hands (thisObject thread frame) fun object =>
      (object.map TaggedObjectId.objectId).toList := by
  refine .withThread thread fun _ => .after (keepsIds_inspect _) fun _ => ?_
  refine .after (keepsIds_inspect _) fun _ => .after (keepsIds_inspect _) fun _ => ?_
  refine .ite (.ret rfl) (.after (keepsIds_call _) fun raw => ?_)
  cases raw with
  | primitive v => exact .refuse _
  | object h =>
      refine .withLocals [h] fun owed => ?_
      exact (Tallies.trackObject owed h .object).bind fun _ => .ret (.refl _)

end Frame

end Command

/-- The answer of the command names objects. -/
def ClientCommand.names : ClientCommand → Bool
  | .allClasses | .classesBySignature _ | .allThreads | .topLevelThreadGroups | .staticValues _ _
  | .interfaces _ | .referenceType _ | .objectValues _ _ | .arrayValues _ _ _ | .threadGroup _
  | .frames _ _ _ | .frameValues _ _ _ | .thisObject _ _ => true
  | _ => false

namespace Command

theorem keepsIds_done {x : Command Unit} (hx : KeepsIds x) : KeepsIds (done x) :=
  keepsIds_bind hx fun _ => keepsIds_pure _

theorem keepsIds_map (f : α → β) {x : Command α} (hx : KeepsIds x) : KeepsIds (f <$> x) := by
  rw [map_eq_pure_bind]
  exact keepsIds_bind hx fun _ => keepsIds_pure _

/-- A command whose answer names no object leaves the identifiers alone, unless it gives some back. -/
theorem keepsIds_ofClient (caller : NativeThread) {command : ClientCommand}
    (hkeeps : ∀ requests, command ≠ .disposeObjects requests) (hnone : command.names = false) :
    KeepsIds (ofClient caller command) := by
  have hset : ∀ kindCode policy modifiers,
      KeepsIds (EventRequest.set kindCode policy modifiers) := fun kindCode policy modifiers =>
    keepsIds_bind (keepsIds_inspect _) fun kind =>
      Registration.keepsIds_register kind policy modifiers
  have hclear : ∀ kindCode id, KeepsIds (EventRequest.clear kindCode id) := fun kindCode id =>
    keepsIds_bind (keepsIds_inspect _) fun kind => Registration.keepsIds_clear kind id
  have hclass : ∀ {α : Type} {query : Handle → Vm → Except JvmtiError α} (id : ObjectId),
      KeepsIds (withClass id fun cls => ask (query cls)) :=
    fun id => keepsIds_withRef _ _ fun _ => keepsIds_inspect _
  have hstate : ∀ id, KeepsIds (Thread.state id) :=
    fun id => keepsIds_withThread id fun _ => keepsIds_inspect _
  cases command with
  | disposeObjects requests => exact absurd rfl (hkeeps requests)
  | allClasses | classesBySignature | allThreads | topLevelThreadGroups | staticValues | interfaces
  | referenceType | objectValues | arrayValues | threadGroup | frames | frameValues | thisObject =>
      cases hnone
  | version =>
      exact keepsIds_map _ (keepsIds_bind (keepsIds_look _) fun _ =>
        keepsIds_bind (keepsIds_inspect _) fun _ => keepsIds_bind (keepsIds_inspect _) fun _ =>
          keepsIds_pure _)
  | suspend => exact keepsIds_done (keepsIds_suspendAll caller)
  | resume =>
      exact keepsIds_done (keepsIds_bind (keepsIds_call _) fun threads =>
        keepsIds_withLocals threads <| keepsIds_bind (keepsIds_call _) fun _ => keepsIds_pure _)
  | capabilities => exact keepsIds_look _
  | signature refType =>
      exact keepsIds_map _ (keepsIds_bind (hclass refType) fun _ => keepsIds_pure _)
  | signatureWithGeneric refType => exact keepsIds_bind (hclass refType) fun _ => keepsIds_pure _
  | modifiers refType => exact keepsIds_map _ (hclass refType)
  | fields refType => exact keepsIds_map _ (Class.keepsIds_fields refType)
  | methods refType => exact keepsIds_map _ (Class.keepsIds_methods refType)
  | sourceFile refType => exact keepsIds_map _ (hclass refType)
  | classStatus refType =>
      exact keepsIds_map _ (keepsIds_withRef _ _ fun _ =>
        keepsIds_bind (keepsIds_inspect _) fun _ => keepsIds_pure _)
  | lineTable refType method => exact keepsIds_map _ (Method.keepsIds_lineTable refType method)
  | variableTable refType method =>
      exact keepsIds_map _ (Method.keepsIds_variableTable refType method)
  | bytecodes refType method =>
      exact keepsIds_map _ (Method.keepsIds_withMethod refType method (keepsIds_inspect _))
  | stringValue string =>
      exact keepsIds_map _ (keepsIds_withRef _ _ fun _ =>
        keepsIds_bind (keepsIds_native _) fun _ => keepsIds_require _ _)
  | arrayLength array =>
      exact keepsIds_map _ (keepsIds_withRef _ _ fun h =>
        keepsIds_bind (Object.keepsIds_arraySignature h) fun _ => keepsIds_native _)
  | threadName thread =>
      exact keepsIds_map _ (keepsIds_withThread thread fun _ =>
        keepsIds_bind (keepsIds_call _) fun _ => keepsIds_withLocals _ (keepsIds_pure _))
  | suspendThread thread =>
      exact keepsIds_done (keepsIds_withThread thread fun _ => keepsIds_call _)
  | resumeThread thread => exact keepsIds_done (keepsIds_withThread thread fun _ => keepsIds_call _)
  | threadStatus thread =>
      exact keepsIds_bind (keepsIds_bind (hstate thread) fun _ => keepsIds_pure _) fun _ =>
        keepsIds_pure _
  | frameCount thread =>
      exact keepsIds_map _ (keepsIds_withThread thread fun _ => keepsIds_inspect _)
  | suspendCount thread =>
      exact keepsIds_map _ (keepsIds_bind (hstate thread) fun _ => keepsIds_pure _)
  | setEvent kindCode policy modifiers => exact keepsIds_map _ (hset _ _ _)
  | setBreakpoint location policy => exact keepsIds_map _ (hset _ _ _)
  | clearEvent kindCode request => exact keepsIds_done (hclear _ _)
  | clearBreakpoint request => exact keepsIds_done (hclear _ _)
  | clearAllBreakpoints => exact keepsIds_done Registration.keepsIds_clearBreakpoints
  | reserved command => exact keepsIds_refuse _

theorem returns_ids_ofClient (caller : NativeThread) {command : ClientCommand}
    (hnone : command.names = false) :
    (ofClient caller command).Returns fun reply => reply.ids = [] := by
  cases command with
  | suspend | resume | disposeObjects | suspendThread | resumeThread | clearEvent | clearBreakpoint
  | clearAllBreakpoints | signatureWithGeneric | threadStatus =>
      exact returns_after fun _ => returns_pure rfl
  | allClasses | classesBySignature | allThreads | topLevelThreadGroups | staticValues | interfaces
  | referenceType | objectValues | arrayValues | threadGroup | frames | frameValues | thisObject =>
      cases hnone
  | capabilities =>
      intro a r b hperform
      cases hperform
      rfl
  | reserved =>
      intro a r b hperform
      cases hperform
  | _ => exact returns_map _ _ fun _ => rfl

/-- Every command but the one that gives identifiers back hands out what it answers. -/
theorem hands_ofClient (caller : NativeThread) {command : ClientCommand}
    (hkeeps : ∀ requests, command ≠ .disposeObjects requests) :
    Hands (ofClient caller command) Reply.ids := by
  cases hnames : command.names with
  | false =>
      exact .of_returns (keepsIds_ofClient caller hkeeps hnames) (returns_ids_ofClient caller hnames)
  | true =>
      cases command with
      | allClasses => exact .map _ (Machine.hands_classesWhere _)
      | classesBySignature signature => exact .map _ (Machine.hands_classesWhere _)
      | allThreads => exact .map _ Machine.hands_allThreads
      | topLevelThreadGroups => exact .map _ Machine.hands_topLevelThreadGroups
      | staticValues refType fields => exact .map _ (Class.hands_values refType fields)
      | interfaces refType => exact .map _ (Class.hands_interfaces refType)
      | referenceType object =>
          exact .map _ (.withRef _ _ fun h => Object.hands_withClassOf h .trackClass)
      | objectValues object fields => exact .map _ (Object.hands_values object fields)
      | arrayValues array first length =>
          exact .map _ (Object.hands_arrayValues array first length)
      | threadGroup thread => exact .map _ (Thread.hands_group thread)
      | frames thread start length => exact .map _ (Thread.hands_frames thread start length)
      | frameValues thread frame slots => exact .map _ (Frame.hands_values thread frame slots)
      | thisObject thread frame => exact .map _ (Frame.hands_thisObject thread frame)
      | _ => cases hnames

end Command

/-- A command that has an answer has run to its end. -/
theorem perform_of_answer {x : Command α} {caller : NativeThread} {r : α}
    (hanswer : answer caller x a = (.ok r, b)) :
    (attach caller >>= fun _ => x).perform a = (.ok r, b) := by
  rw [answer, seqRight_eq_bind] at hanswer
  generalize (attach caller >>= fun _ => x).perform a = outcome at hanswer ⊢
  obtain ⟨(cause | _) | result, c⟩ := outcome
  · cases hanswer
  · cases hanswer
  · cases hanswer
    rfl

theorem Hands.answer (hids : IdsBounded a) {x : Command α} {last : α → List ObjectId}
    (hx : Hands x last) {caller : NativeThread} {r : α}
    (hanswer : Command.answer caller x a = (.ok r, b)) : Counted (last r) a b := by
  have htallies := Tallies.after (keepsIds_attach caller) (fun _ => hx []) a a (.refl hids)
  rw [perform_of_answer hanswer] at htallies
  simpa only [Handed, List.append_nil] using htallies

/-- Looking at the machine counts identifiers; if it counts none, it leaves them alone. -/
theorem counted_of_inspections {may : Control → Prop} (hids : IdsBounded a)
    (h : Relation.ReflTransGen (Inspection may) a b) :
    ∃ ids, Counted ids a b ∧ (∀ id ∈ ids, id ≠ 0) ∧ (ids = [] → b.tracker = a.tracker) := by
  have hsome : ∀ {id : ObjectId} {ids : List ObjectId} {p : Prop}, id :: ids = [] → p :=
    fun heq => by cases heq
  induction h with
  | refl => exact ⟨[], .refl hids, fun _ hmem => absurd hmem List.not_mem_nil, fun _ => rfl⟩
  | tail _ hlast ih =>
      obtain ⟨ids, hcounted, hne, hnone⟩ := ih
      cases hlast with
      | glance | attach | halt | resume => exact ⟨ids, hcounted.of_tracker_eq rfl, hne, hnone⟩
      | @recount id entry hentry =>
          have hid : id ≠ 0 := Nat.ne_of_gt (hcounted.bounded.bounded hentry).1
          exact ⟨id :: ids, hcounted.recount hentry, List.forall_mem_cons.mpr ⟨hid, hne⟩, hsome⟩
      | @enrol object =>
          have hid := Nat.ne_of_gt hcounted.bounded.pos
          exact ⟨_ :: ids, hcounted.enrol object, List.forall_mem_cons.mpr ⟨hid, hne⟩, hsome⟩

/-- A command that succeeds has counted each identifier as often as its answer names it. -/
theorem counted_serve (hids : IdsBounded a) (caller : NativeThread) {command : ClientCommand}
    (hkeeps : ∀ requests, command ≠ .disposeObjects requests) {reply : Reply}
    (hserve : Agent.serve caller command a = (.ok reply, b)) : Counted reply.ids a b := by
  have hhands := hands_ofClient caller hkeeps
  cases command with
  | capabilities =>
      cases hserve
      exact .refl hids
  | _ => exact hhands.answer hids hserve

end DebugAgent
