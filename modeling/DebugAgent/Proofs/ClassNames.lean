import DebugAgent.Proofs.Naming
import DebugAgent.Proofs.Past

/-!
# What passes for a class

A command on a class takes any object for one.  That the object is no class is noticed when the
machine is asked something of it, and then the command is refused.  The commands on methods only look
whether the identifier is in use, and so do the modifiers of a request that name a class, and a
command for the values of no fields at all: to them one identifier in use is as good as another.
-/

namespace DebugAgent

open DebugAgent.Action Command Tracking

/-! ### Putting one name in the place of another -/

/-- One name takes the place of another. -/
def instead (id other : ObjectId) (name : ObjectId) : ObjectId := if name = id then other else name

variable {f : ObjectId → ObjectId}

/-- Renames the class that a modifier names. -/
def EventModifier.renameClass (f : ObjectId → ObjectId) : EventModifier → EventModifier
  | .classOnly refType => .classOnly (f refType)
  | .locationOnly location => .locationOnly { location with classId := f location.classId }
  | .exceptionOnly refType caught uncaught => .exceptionOnly (f refType) caught uncaught
  | modifier => modifier

/-- Renames the class that a filter names. -/
def Filter.renameClass (f : ObjectId → ObjectId) : Filter → Filter
  | .classOnly refType => .classOnly (f refType)
  | .exceptionOnly refType caught uncaught => .exceptionOnly (f refType) caught uncaught
  | filter => filter

def Request.renameClass (f : ObjectId → ObjectId) (request : Request) : Request :=
  { request with filters := request.filters.map (Filter.renameClass f) }

/-- Renames the classes that the registered requests name. -/
def Agent.renameClass (f : ObjectId → ObjectId) (a : Agent) : Agent :=
  { a with
    requests := { a.requests with
      requests := a.requests.requests.map (Request.renameClass f) } }

/-- Two outcomes are the same but for names of classes in the requests that are registered. -/
def SameButClasses (f : ObjectId → ObjectId) (p q : Except (Stop ProtocolError) α × Agent) : Prop :=
  p.1 = q.1 ∧ p.2.renameClass f = q.2.renameClass f

namespace ClientCommand

/-- Renames the class that a command is about. -/
def renameClass (f : ObjectId → ObjectId) : ClientCommand → ClientCommand
  | .signature refType => .signature (f refType)
  | .signatureWithGeneric refType => .signatureWithGeneric (f refType)
  | .modifiers refType => .modifiers (f refType)
  | .fields refType => .fields (f refType)
  | .methods refType => .methods (f refType)
  | .staticValues refType names => .staticValues (f refType) names
  | .sourceFile refType => .sourceFile (f refType)
  | .classStatus refType => .classStatus (f refType)
  | .interfaces refType => .interfaces (f refType)
  | .lineTable refType method => .lineTable (f refType) method
  | .variableTable refType method => .variableTable (f refType) method
  | .bytecodes refType method => .bytecodes (f refType) method
  | .setEvent kindCode policy named =>
      .setEvent kindCode policy (named.map (EventModifier.renameClass f))
  | .setBreakpoint location policy =>
      .setBreakpoint { location with classId := f location.classId } policy
  | command => command

/-- The class that a command asks the machine about. -/
def asksOf? : ClientCommand → Option ObjectId
  | .signature refType | .signatureWithGeneric refType | .modifiers refType | .fields refType
  | .methods refType | .staticValues refType (_ :: _) | .sourceFile refType
  | .classStatus refType | .interfaces refType => some refType
  | _ => none

end ClientCommand

variable {a : Agent} {α : Type} {id other : ObjectId} {object cls : HeapId}
variable {cause : ProtocolError} {kind : EventKind}

/-! ### Asking something of an object that is no class -/

theorem classOf_opened (hobject : a.vm.classAt? object = none) :
    (a.opened object).vm.classOf (a.vm.newLocal object).1 = .error .invalidClass := by
  have htarget : (a.opened object).vm.target? (a.vm.newLocal object).1 = some object :=
    Vm.target?_newRef a.vm .localRef object
  have hnone : (a.opened object).vm.classAt? object = none := hobject
  simp [Vm.classOf, htarget, hnone]

/-- What is done with an object and changes nothing leaves a reference number used up. -/
theorem perform_withRef_of_same (hb : a.vm.RefsBounded)
    (hlive : a.tracker.target? a.vm id = some object) {x : Handle → Command α}
    {result : Except (Stop ProtocolError) α}
    (hx : (x (a.vm.newLocal object).1).perform (a.opened object) = (result, a.opened object)) :
    (withRef id cause x).perform a = (result, a.spend 8) := by
  have hdropped : dropLocal (a.opened object).vm (a.vm.newLocal object).1 = a.vm.spend 8 :=
    Vm.dropLocal_newLocal_self hb object
  rw [perform_withRef_live hlive, perform_withLocal, hx, hdropped]
  rfl

/-- A command that asks about a class is refused if it is given another object. -/
theorem perform_asks (hb : a.vm.RefsBounded) (hnamed : a.tracker.target? a.vm id = some object)
    (hobject : a.vm.classAt? object = none)
    (hgrant : a.vm.grants Capabilities.canGetSourceFileName = true) (caller : NativeThread)
    {command : ClientCommand} (hasks : command.asksOf? = some id) :
    (ofClient caller command).perform a = (.error (.refused .invalidClass), a.spend 8) := by
  let h := (a.vm.newLocal object).1
  have hclass : (a.opened object).vm.classOf h = .error .invalidClass := classOf_opened hobject
  have hprepared : (a.opened object).vm.preparedClassOf h = .error .invalidClass := by
    rw [Vm.preparedClassOf, hclass]
  have hdemand : (a.opened object).vm.demand Capabilities.canGetSourceFileName = .ok () := by
    have hgranted : (a.opened object).vm.grants Capabilities.canGetSourceFileName = true := hgrant
    rw [Vm.demand, hgranted, if_pos rfl]
  have hrefused : ∀ {β : Type} {x : Handle → Command β},
      (x h).perform (a.opened object) = (.error (.refused .invalidClass), a.opened object) →
      (withClass id x).perform a = (.error (.refused .invalidClass), a.spend 8) :=
    fun hx => perform_withRef_of_same hb hnamed hx
  have hsignature : (Class.signatureWithGeneric id).perform a =
      (.error (.refused .invalidClass), a.spend 8) :=
    hrefused (by simp [ask, Vm.classSignature, hclass, JvmtiError.toProtocol])
  have hmodifiers : (Class.modifiers id).perform a =
      (.error (.refused .invalidClass), a.spend 8) :=
    hrefused (by simp [ask, Vm.classModifiers, hclass, JvmtiError.toProtocol, Except.map])
  have hfields : (Class.fields id).perform a = (.error (.refused .invalidClass), a.spend 8) :=
    hrefused (by
      simp [perform_bind, ask, Vm.classFields, hprepared, JvmtiError.toProtocol, Except.map])
  have hmethods : (Class.methods id).perform a = (.error (.refused .invalidClass), a.spend 8) :=
    hrefused (by
      simp [perform_bind, ask, Vm.classMethods, hprepared, JvmtiError.toProtocol, Except.map])
  have hvalues : ∀ field fields, (Class.values id (field :: fields)).perform a =
      (.error (.refused .invalidClass), a.spend 8) := by
    intro field fields
    have hname : (a.opened object).vm.fieldName h field = .error .invalidClass := by
      rw [Vm.fieldName, hclass]
      rfl
    exact hrefused (by simp [perform_bind, ask, Class.value, hname, JvmtiError.toProtocol])
  have hsource : (Class.sourceFile id).perform a = (.error (.refused .invalidClass), a.spend 8) :=
    hrefused (by
      simp [ask, Vm.sourceFileName, hdemand, hclass, JvmtiError.toProtocol, bind, Except.bind])
  have hstatus : (Class.status id).perform a = (.error (.refused .invalidClass), a.spend 8) :=
    hrefused (by
      simp [ask, Vm.classStatus, hclass, JvmtiError.toProtocol, Except.map])
  have hinterfaces : (Class.interfaces id).perform a =
      (.error (.refused .invalidClass), a.spend 8) :=
    hrefused (by
      simp [perform_bind, call, mapCause, Vm.implementedInterfaces, hprepared,
        JvmtiError.toProtocol, Agent.setVm])
  cases command with
  | staticValues refType fields =>
      cases fields with
      | nil => cases hasks
      | cons field fields =>
          cases hasks
          simp [ofClient, hvalues, Except.map]
  | signature | signatureWithGeneric | modifiers | fields | methods | sourceFile | classStatus
  | interfaces =>
      cases hasks
      simp [ofClient, Class.signature, Except.map, hsignature, hmodifiers, hfields, hmethods,
        hsource, hstatus, hinterfaces]
  | _ => cases hasks

/-! ### Only looking whether an identifier is in use -/

/-- The command tells the same and changes nothing, whatever references there are. -/
def Blind (x : Command α) : Prop :=
  ∀ (a : Agent) refs lastRef,
    x.perform (a.setVm { a.vm with refs, lastRef }) =
      ((x.perform a).1, a.setVm { a.vm with refs, lastRef })

section Blind

variable {β : Type}

theorem blind_pure (result : α) : Blind (pure result) := fun _ _ _ => rfl

theorem blind_ofExcept (result : Except ProtocolError α) : Blind (ofExcept result) :=
  fun _ _ _ => rfl

/-- A query that does not follow references. -/
theorem blind_ask {query : Vm → Except JvmtiError α}
    (hquery : ∀ (vm : Vm) refs lastRef, query { vm with refs, lastRef } = query vm) :
    Blind (ask query) := by
  intro a refs lastRef
  simp [ask, Agent.setVm, hquery]

theorem blind_bind {x : Command α} {g : α → Command β} (hx : Blind x) (hg : ∀ r, Blind (g r)) :
    Blind (x >>= g) := by
  intro a refs lastRef
  have hsame : (x.perform a).2 = a := by
    have h := hx a a.vm.refs a.vm.lastRef
    exact congrArg Prod.snd h
  rw [perform_bind, perform_bind, hx a refs lastRef]
  generalize x.perform a = outcome at hsame
  obtain ⟨stop | r, b⟩ := outcome
  · cases hsame
    rfl
  · cases hsame
    exact hg r b refs lastRef

/-- Whatever object is named, the command tells the same. -/
theorem perform_withRef_of_blind (hb : a.vm.RefsBounded)
    (hlive : a.tracker.target? a.vm id = some object) {x : Command α} (hx : Blind x) :
    (withRef id cause fun _ => x).perform a = ((x.perform a).1, a.spend 8) :=
  perform_withRef_of_same hb hlive (hx a _ _)

/-- A command on a method tells the same whatever object is named along with the method. -/
theorem perform_withMethod_congr (hb : a.vm.RefsBounded)
    (hlive : a.tracker.target? a.vm id = some object)
    (hother : a.tracker.target? a.vm other = some cls) (method : MethodId) {x : Command α}
    (hx : Blind x) :
    (Method.withMethod other method x).perform a = (Method.withMethod id method x).perform a := by
  have hchecked : Blind (do ofExcept (checkMethod method); x) :=
    blind_bind (blind_ofExcept _) fun _ => hx
  rw [Method.withMethod, Method.withMethod, withClass, withClass,
    perform_withRef_of_blind hb hlive hchecked, perform_withRef_of_blind hb hother hchecked]

theorem perform_lineTable_congr (hb : a.vm.RefsBounded)
    (hlive : a.tracker.target? a.vm id = some object)
    (hother : a.tracker.target? a.vm other = some cls) (method : MethodId) :
    (Method.lineTable other method).perform a = (Method.lineTable id method).perform a := by
  apply perform_withMethod_congr hb hlive hother
  refine blind_bind (blind_ask fun _ _ _ => rfl) fun _ => ?_
  exact blind_bind (blind_ask fun _ _ _ => rfl) fun _ => blind_pure _

theorem perform_variableTable_congr (hb : a.vm.RefsBounded)
    (hlive : a.tracker.target? a.vm id = some object)
    (hother : a.tracker.target? a.vm other = some cls) (method : MethodId) :
    (Method.variableTable other method).perform a =
      (Method.variableTable id method).perform a := by
  apply perform_withMethod_congr hb hlive hother
  refine blind_bind (blind_ask fun _ _ _ => rfl) fun _ => ?_
  refine blind_bind (blind_ask fun _ _ _ => rfl) fun _ => blind_bind (blind_ofExcept _) fun _ => ?_
  exact blind_bind (blind_ask fun _ _ _ => rfl) fun _ => blind_pure _

theorem perform_bytecodes_congr (hb : a.vm.RefsBounded)
    (hlive : a.tracker.target? a.vm id = some object)
    (hother : a.tracker.target? a.vm other = some cls) (method : MethodId) :
    (Method.bytecodes other method).perform a = (Method.bytecodes id method).perform a :=
  perform_withMethod_congr hb hlive hother method (blind_ask fun _ _ _ => rfl)

end Blind

/-! ### Modifiers that name a class -/

theorem isSome_target?_instead (hlive : a.tracker.target? a.vm id = some object)
    (hother : a.tracker.target? a.vm other = some cls) (name : ObjectId) :
    (a.tracker.target? a.vm (instead id other name)).isSome =
      (a.tracker.target? a.vm name).isSome := by
  by_cases hname : name = id
  · simp [instead, hname, hlive, hother]
  · simp [instead, hname]

theorem instead_eq_zero (hids : IdsBounded a) (hlive : a.tracker.target? a.vm id = some object)
    (hother : a.tracker.target? a.vm other = some cls) (name : ObjectId) :
    instead id other name = 0 ↔ name = 0 := by
  have hnone := target?_zero hids
  have hid : id ≠ 0 := by
    rintro rfl
    cases hnone.symm.trans hlive
  have hother0 : other ≠ 0 := by
    rintro rfl
    cases hnone.symm.trans hother
  by_cases hname : name = id
  · simp [instead, hname, hid, hother0]
  · simp [instead, hname]

/-- Only looking whether an identifier is in use. -/
theorem perform_withRef_pure (hb : a.vm.RefsBounded) (id : ObjectId) (r : α) :
    (withRef id cause fun _ => pure r).perform a =
      if (a.tracker.target? a.vm id).isSome then (.ok r, a.spend 8)
      else (.error (.refused cause), a) := by
  cases hnamed : a.tracker.target? a.vm id with
  | none => exact perform_withRef_dead hnamed _
  | some object => exact perform_withRef_of_blind hb hnamed (blind_pure r)

/-- What comes of a command on a thread is left alone by a function that leaves alone what may come
of it. -/
theorem map_withThread {x : Handle → Command α} {g : α → α}
    (hx : ∀ h a, ((x h).perform a).1.map g = ((x h).perform a).1) (id : ObjectId) (a : Agent) :
    ((withThread id x).perform a).1.map g = ((withThread id x).perform a).1 := by
  rw [withThread, perform_bind]
  generalize (acquire id).perform a = outcome
  obtain ⟨stop | h, b⟩ := outcome
  · rfl
  · dsimp only
    rw [perform_withLocal, perform_bind, see, perform_look]
    dsimp only
    cases isAlive b.vm h with
    | false => rfl
    | true => exact hx h b

namespace Registration

/-- All that a command does is to use up reference numbers. -/
def Spends (x : Command α) : Prop :=
  ∀ a : Agent, a.vm.RefsBounded → ∃ used, (x.perform a).2 = a.spend used

section Spends

variable {β : Type}

theorem spends_of_same {x : Command α} (hx : ∀ a, (x.perform a).2 = a) : Spends x :=
  fun a _ => ⟨0, hx a⟩

theorem same_bind {x : Command α} {g : α → Command β} (hx : ∀ a, (x.perform a).2 = a)
    (hg : ∀ r a, ((g r).perform a).2 = a) (a : Agent) : ((x >>= g).perform a).2 = a := by
  have hsame := hx a
  rw [perform_bind]
  generalize x.perform a = outcome at hsame
  obtain ⟨stop | r, b⟩ := outcome
  · exact hsame
  · exact (hg r b).trans hsame

theorem spends_bind {x : Command α} {g : α → Command β} (hx : Spends x) (hg : ∀ r, Spends (g r)) :
    Spends (x >>= g) := by
  intro a hb
  obtain ⟨used, hsame⟩ := hx a hb
  rw [perform_bind]
  generalize x.perform a = outcome at hsame
  obtain ⟨stop | r, b⟩ := outcome
  · exact ⟨used, hsame⟩
  · cases hsame
    obtain ⟨more, hrest⟩ := hg r (a.spend used) (Vm.bounded_spend hb used)
    exact ⟨used + more, hrest.trans (Agent.spend_spend a used more)⟩

theorem spends_guard (condition : Bool) (cause : ProtocolError) :
    Spends (Action.guard condition cause) := by
  cases condition <;> exact spends_of_same fun _ => rfl

theorem spends_withRef {x : Handle → Command α} (hx : ∀ h a, ((x h).perform a).2 = a) :
    Spends (withRef id cause x) := by
  intro a hb
  cases hnamed : a.tracker.target? a.vm id with
  | none => exact ⟨0, by rw [perform_withRef_dead hnamed]; rfl⟩
  | some object =>
      have hsame : (x (a.vm.newLocal object).1).perform (a.opened object) =
          (((x (a.vm.newLocal object).1).perform (a.opened object)).1, a.opened object) :=
        Prod.ext rfl (hx _ _)
      exact ⟨8, by rw [perform_withRef_of_same hb hnamed hsame]⟩

theorem spends_withThread {x : Handle → Command α} (hx : ∀ h a, ((x h).perform a).2 = a) :
    Spends (withThread id x) := by
  intro a hb
  cases hnamed : a.tracker.target? a.vm id with
  | none => exact ⟨0, by rw [perform_withThread_dead hnamed]; rfl⟩
  | some object =>
      cases hlive : a.vm.isLiveThread object with
      | false => exact ⟨8, by rw [perform_withThread_ended hb hnamed hlive]⟩
      | true =>
          have hdropped : dropLocal (a.opened object).vm (a.vm.newLocal object).1 = a.vm.spend 8 :=
            Vm.dropLocal_newLocal_self hb object
          refine ⟨8, ?_⟩
          rw [perform_withThread_live hnamed hlive, perform_withLocal]
          simp only [hx, hdropped]
          rfl

theorem spends_filterOf (kind : EventKind) (modifier : EventModifier) :
    Spends (filterOf kind modifier) := by
  refine spends_bind (spends_guard _ _) fun _ => ?_
  cases modifier with
  | count times => exact spends_bind (spends_guard _ _) fun _ => spends_of_same fun _ => rfl
  | classMatch | classExclude | fieldOnly => exact spends_of_same fun _ => rfl
  | threadOnly => exact spends_withThread fun _ _ => rfl
  | classOnly | instanceOnly => exact spends_withRef fun _ _ => rfl
  | locationOnly location =>
      exact spends_bind (spends_of_same fun _ => rfl) fun _ => spends_withRef fun _ _ => rfl
  | exceptionOnly refType caught uncaught =>
      dsimp only
      split
      · exact spends_bind (spends_withRef fun _ _ => rfl) fun _ => spends_of_same fun _ => rfl
      · exact spends_of_same fun _ => rfl
  | step thread size depth =>
      refine spends_withThread fun h => same_bind ?_ fun _ _ => rfl
      refine same_bind (fun _ => rfl) fun _ => same_bind (fun _ => rfl) fun _ => ?_
      exact same_bind (fun _ => rfl) fun _ _ => rfl

end Spends

/-- A filter that is made of a modifier names the class that the modifier names. -/
theorem perform_filterOf_renameClass (hids : IdsBounded a) (hb : a.vm.RefsBounded)
    (hlive : a.tracker.target? a.vm id = some object)
    (hother : a.tracker.target? a.vm other = some cls) (kind : EventKind)
    (modifier : EventModifier) :
    (filterOf kind (modifier.renameClass (instead id other))).perform a =
      (Filter.renameClass (instead id other) <$> filterOf kind modifier).perform a := by
  have happlies : (modifier.renameClass (instead id other)).appliesTo kind =
      modifier.appliesTo kind := by cases modifier <;> rfl
  have hsome := isSome_target?_instead hlive hother
  rw [perform_map]
  simp only [filterOf, perform_bind, happlies]
  cases modifier.appliesTo kind with
  | false => rfl
  | true =>
      cases modifier with
      | count times =>
          cases hpos : decide (0 < times) <;>
            simp [EventModifier.renameClass, hpos, Filter.renameClass, Except.map]
      | threadOnly thread =>
          exact Prod.ext (map_withThread (fun _ _ => rfl) thread a).symm rfl
      | classOnly refType =>
          simp only [perform_guard_true, EventModifier.renameClass, withClass,
            perform_withRef_pure hb, hsome]
          split <;> rfl
      | classMatch | classExclude | fieldOnly => rfl
      | locationOnly location =>
          simp only [perform_guard_true, EventModifier.renameClass, perform_bind, Action.ofExcept,
            perform_inspect]
          cases checkMethod location.methodId with
          | error cause => rfl
          | ok _ =>
              simp only [mapError_ok, withClass, perform_withRef_pure hb, hsome]
              split <;> rfl
      | exceptionOnly refType caught uncaught =>
          have hzero := instead_eq_zero hids hlive hother refType
          simp only [perform_guard_true, EventModifier.renameClass, ne_eq, hzero]
          by_cases hnull : refType = 0
          · simp [hnull, Filter.renameClass, Except.map]
          · simp only [hnull, not_false_eq_true, if_true, perform_bind, withClass,
              perform_withRef_pure hb, hsome]
            split <;> rfl
      | step thread size depth =>
          refine Prod.ext (map_withThread (fun h b => ?_) thread a).symm rfl
          rw [perform_bind]
          generalize (startPoint h).perform b = outcome
          obtain ⟨stop | point, c⟩ := outcome <;> rfl
      | instanceOnly object =>
          simp only [perform_guard_true, EventModifier.renameClass, withObject,
            perform_withRef_pure hb]
          split <;> rfl

theorem perform_filters_renameClass (hids : IdsBounded a) (hb : a.vm.RefsBounded)
    (hlive : a.tracker.target? a.vm id = some object)
    (hother : a.tracker.target? a.vm other = some cls) (kind : EventKind)
    (modifiers : List EventModifier) :
    ((modifiers.map (EventModifier.renameClass (instead id other))).mapM (filterOf kind)).perform a =
      (List.map (Filter.renameClass (instead id other)) <$>
        modifiers.mapM (filterOf kind)).perform a := by
  induction modifiers generalizing a with
  | nil => rfl
  | cons modifier modifiers ih =>
      have hfirst := perform_filterOf_renameClass hids hb hlive hother kind modifier
      obtain ⟨used, hspent⟩ := spends_filterOf kind modifier a hb
      rw [perform_map] at hfirst ⊢
      rw [List.map_cons, List.mapM_cons, List.mapM_cons, perform_bind, perform_bind, hfirst]
      generalize (filterOf kind modifier).perform a = outcome at hspent
      obtain ⟨stop | filter, b⟩ := outcome
      · rfl
      · obtain rfl : b = a.spend used := hspent
        have hrest := @ih (a.spend used) (hids.of_tracker_eq rfl) (Vm.bounded_spend hb used)
          hlive hother
        rw [perform_map] at hrest
        simp only [Except.map, perform_bind, hrest]
        generalize (modifiers.mapM (filterOf kind)).perform (a.spend used) = rest
        obtain ⟨stop | filters, c⟩ := rest <;> rfl

theorem needed_renameClass (f : ObjectId → ObjectId) (kind : EventKind) (filters : List Filter) :
    needed kind (filters.map (Filter.renameClass f)) = needed kind filters := by
  have hposition : ∀ filter : Filter, positionOf? (filter.renameClass f) = positionOf? filter :=
    fun filter => by cases filter <;> rfl
  have hthread : ∀ filter : Filter, stepThreadOf? (filter.renameClass f) = stepThreadOf? filter :=
    fun filter => by cases filter <;> rfl
  simp only [needed, List.filterMap_map, Function.comp_def, hposition, hthread]

theorem instead_instead (id other name : ObjectId) :
    instead id other (instead id other name) = instead id other name := by
  simp only [instead]
  split <;> simp_all

/-- The rest of the registration, once the filters are made. -/
theorem perform_enter_renameClass (kind : EventKind) (policy : SuspendPolicy)
    (filters : List Filter) (b : Agent) :
    let enter (filters : List Filter) : Command RequestId := do
      let registration ← ofExcept (needed kind filters)
      acquire registration
      let id ← look fun a => a.requests.nextId
      change fun a => { a with requests := a.requests.add kind policy filters registration }
      return id
    SameButClasses (instead id other)
      ((enter (filters.map (Filter.renameClass (instead id other)))).perform b)
      ((enter filters).perform b) := by
  intro enter
  have htwice : ∀ filter : Filter,
      (filter.renameClass (instead id other)).renameClass (instead id other) =
        filter.renameClass (instead id other) := by
    intro filter
    cases filter <;> simp [Filter.renameClass, instead_instead]
  simp only [enter, perform_bind, Action.ofExcept, perform_inspect, needed_renameClass]
  cases needed kind filters with
  | error cause => exact ⟨rfl, rfl⟩
  | ok registration =>
      simp only [mapError_ok, perform_look, perform_change, perform_pure]
      generalize (acquire registration).perform b = acquired
      obtain ⟨stop | _, c⟩ := acquired
      · exact ⟨rfl, rfl⟩
      · refine ⟨rfl, ?_⟩
        simp [Agent.renameClass, RequestTable.add, Request.renameClass, htwice]

/-- A request that names another object in use for a class is registered or refused alike. -/
theorem perform_register_renameClass (hids : IdsBounded a) (hb : a.vm.RefsBounded)
    (hlive : a.tracker.target? a.vm id = some object)
    (hother : a.tracker.target? a.vm other = some cls) (kind : EventKind) (policy : SuspendPolicy)
    (modifiers : List EventModifier) :
    SameButClasses (instead id other)
      ((register kind policy (modifiers.map (EventModifier.renameClass (instead id other)))).perform
        a)
      ((register kind policy modifiers).perform a) := by
  have hfilters := perform_filters_renameClass hids hb hlive hother kind modifiers
  rw [perform_map] at hfilters
  cases hsupported : kind.isSupported with
  | false =>
      simp only [register, hsupported]
      exact ⟨rfl, rfl⟩
  | true =>
      simp only [register, hsupported]
      rw [perform_bind, perform_bind, perform_guard_true]
      dsimp only
      rw [perform_bind, perform_bind, hfilters]
      generalize (modifiers.mapM (filterOf kind)).perform a = outcome
      obtain ⟨stop | filters, b⟩ := outcome
      · exact ⟨rfl, rfl⟩
      · exact perform_enter_renameClass kind policy filters b

end Registration

/-! ### Commands -/

theorem perform_set_renameClass (hids : IdsBounded a) (hb : a.vm.RefsBounded)
    (hlive : a.tracker.target? a.vm id = some object)
    (hother : a.tracker.target? a.vm other = some cls) (kindCode : Nat) (policy : SuspendPolicy)
    (modifiers : List EventModifier) :
    SameButClasses (instead id other)
      ((EventRequest.set kindCode policy
        (modifiers.map (EventModifier.renameClass (instead id other)))).perform a)
      ((EventRequest.set kindCode policy modifiers).perform a) := by
  simp only [EventRequest.set, perform_bind, Action.ofExcept, perform_inspect]
  cases EventKind.ofCode kindCode with
  | error cause => exact ⟨rfl, rfl⟩
  | ok kind =>
      exact Registration.perform_register_renameClass hids hb hlive hother kind policy modifiers

/-- A command that does not ask about the class that it names treats one identifier in use as any
other. -/
theorem perform_ofClient_renameClass (hids : IdsBounded a) (hb : a.vm.RefsBounded)
    (hlive : a.tracker.target? a.vm id = some object)
    (hother : a.tracker.target? a.vm other = some cls) (caller : NativeThread)
    {command : ClientCommand} (hasks : command.asksOf? ≠ some id) :
    SameButClasses (instead id other)
      ((ofClient caller (command.renameClass (instead id other))).perform a)
      ((ofClient caller command).perform a) := by
  have hsame : ∀ {p q : Except (Stop ProtocolError) Reply × Agent}, p = q →
      SameButClasses (instead id other) p q := by
    rintro p q rfl
    exact ⟨rfl, rfl⟩
  have hunasked : ∀ {refType : ObjectId}, some refType ≠ some id →
      instead id other refType = refType := fun hne => if_neg fun heq => hne (congrArg some heq)
  -- What is so if the identifier is exchanged is so anyway.
  have hcongr : ∀ {x : ObjectId → Command Reply},
      (x other).perform a = (x id).perform a → ∀ refType,
        SameButClasses (instead id other) ((x (instead id other refType)).perform a)
          ((x refType).perform a) := by
    intro x hx refType
    by_cases hname : refType = id
    · subst hname
      exact hsame (by rwa [instead, if_pos rfl])
    · exact hsame (by rw [instead, if_neg hname])
  have hrequest : ∀ {x y : Command RequestId},
      SameButClasses (instead id other) (x.perform a) (y.perform a) →
      SameButClasses (instead id other) ((Reply.request <$> x).perform a)
        ((Reply.request <$> y).perform a) := by
    rintro x y ⟨hanswer, hstate⟩
    rw [perform_map, perform_map]
    exact ⟨congrArg (Except.map Reply.request) hanswer, hstate⟩
  cases command with
  | signature | signatureWithGeneric | modifiers | fields | methods | sourceFile | classStatus
  | interfaces => exact hsame (by rw [ClientCommand.renameClass, hunasked hasks])
  | staticValues refType fields =>
      cases fields with
      | cons => exact hsame (by rw [ClientCommand.renameClass, hunasked hasks])
      | nil =>
          refine @hcongr (fun refType => ofClient caller (.staticValues refType [])) ?_ refType
          have hnone : Blind (pure [] : Command (List Value)) := blind_pure []
          simp only [ofClient, Class.values, List.mapM_nil, perform_map, withClass,
            perform_withRef_of_blind hb hlive hnone, perform_withRef_of_blind hb hother hnone]
  | lineTable refType method =>
      refine @hcongr (fun refType => ofClient caller (.lineTable refType method)) ?_ refType
      simp only [ofClient, perform_map, perform_lineTable_congr hb hlive hother]
  | variableTable refType method =>
      refine @hcongr (fun refType => ofClient caller (.variableTable refType method)) ?_ refType
      simp only [ofClient, perform_map, perform_variableTable_congr hb hlive hother]
  | bytecodes refType method =>
      refine @hcongr (fun refType => ofClient caller (.bytecodes refType method)) ?_ refType
      simp only [ofClient, perform_map, perform_bytecodes_congr hb hlive hother]
  | setEvent kindCode policy modifiers =>
      exact hrequest (perform_set_renameClass hids hb hlive hother kindCode policy modifiers)
  | setBreakpoint location policy =>
      exact hrequest (perform_set_renameClass hids hb hlive hother EventKind.breakpoint.code policy
        [.locationOnly location])
  | _ => exact hsame rfl

theorem classAt?_attach {vm : Vm} (hobject : vm.classAt? object = none) (caller : NativeThread) :
    (vm.attach caller).2.classAt? object = none :=
  (Vm.classAt?_attach vm caller object).trans hobject

/-- An agent that has been asked for the threads and for a class, with all capabilities granted.  Its
client knows a thread as 1 and the class as 3. -/
def Past.threadAndClass : Past where
  steps := [.defineClass "LMain;", .addMethod 9 { name := "main", signature := "()V" },
    .spawnThread "worker"]
  config := {
    capabilities := { canGenerateMethodEntryEvents := true, canGenerateMethodExitEvents := true } }
  incidents := [.op (.command (.client 0) .allThreads),
    .op (.command (.client 0) (.classesBySignature "LMain;"))]

/-- An object that is no class, named as one.  A command that asks about it is refused.  Any other
command does with it what it does with any other object in use, for instance with a class: it has
the same answer, and the same is registered under the other name. -/
theorem non_class_noticed_when_asked (past : Past) (caller : NativeThread)
    (hattaches : past.agent.vm.attachFails = false)
    (hgrant : past.agent.vm.grants Capabilities.canGetSourceFileName = true)
    (hlive : past.agent.tracker.target? past.agent.vm id = some object)
    (hobject : past.agent.vm.classAt? object = none)
    (hother : past.agent.tracker.target? past.agent.vm other = some cls) :
    let a := past.agent
    (∀ command : ClientCommand, command.asksOf? = some id →
      Agent.serve caller command a =
        (.error .invalidClass, (a.setVm (a.vm.attach caller).2).spend 8)) ∧
    ∀ command : ClientCommand, command.asksOf? ≠ some id →
      let renamed := Agent.serve caller (command.renameClass (instead id other)) a
      (Agent.serve caller command a).1 = renamed.1 ∧
        (Agent.serve caller command a).2.renameClass (instead id other) =
          renamed.2.renameClass (instead id other) := by
  intro a
  let attached := a.setVm (a.vm.attach caller).2
  have ho : InOrder a := past.inOrder
  have hages : a.vm.Ages attached.vm := (Vm.frame_attach caller).conserves.toAges
  have hb : attached.vm.RefsBounded := hages.bounded ho.refs
  have hids : IdsBounded attached := ho.ids.of_tracker_eq rfl
  have htargets : ∀ name, attached.tracker.target? attached.vm name = a.tracker.target? a.vm name := by
    intro name
    exact congrArg (Option.bind (a.tracker.global? name)) (funext (target?_attach a.vm caller))
  have hserve : ∀ command : ClientCommand, command ≠ .capabilities →
      Agent.serve caller command a = answer caller (ofClient caller command) a := by
    intro command hnot
    cases command with
    | capabilities => exact absurd rfl hnot
    | _ => rfl
  constructor
  · intro command hasks
    have hnot : command ≠ .capabilities := by
      rintro rfl
      cases hasks
    rw [hserve command hnot, answer_of_attaching hattaches,
      @perform_asks attached id object hb ((htargets id).trans hlive)
        (classAt?_attach hobject caller) ((grants_attach _ _ _).trans hgrant) caller command hasks]
    rfl
  · intro command hasks renamed
    by_cases hcapabilities : command = .capabilities
    · subst hcapabilities
      exact ⟨rfl, rfl⟩
    · have hnot : command.renameClass (instead id other) ≠ .capabilities := by
        cases command with
        | capabilities => exact absurd rfl hcapabilities
        | _ => exact ClientCommand.noConfusion
      obtain ⟨hanswer, hstate⟩ := @perform_ofClient_renameClass attached id other object cls hids hb
        ((htargets id).trans hlive) ((htargets other).trans hother) caller command hasks
      have hanswered := @answer_of_attaching Reply a hattaches caller
      simp only [renamed, hserve _ hcapabilities, hserve _ hnot, hanswered]
      exact ⟨congrArg (Except.mapError Stop.told) hanswer.symm, hstate.symm⟩

/-- The signature of a thread is refused, and the bytecodes of a method are told with the thread for
its class. -/
theorem thread_noticed_when_asked :
    let a := Past.threadAndClass.agent
    (Agent.serve (.client 0) (.signature 1) a).1 = .error .invalidClass ∧
      (Agent.serve (.client 0) (.bytecodes 1 0x1000) a).1 =
        (Agent.serve (.client 0) (.bytecodes 3 0x1000) a).1 := by
  intro a
  obtain ⟨hasked, hunasked⟩ := @non_class_noticed_when_asked 1 3 10 9 Past.threadAndClass
    (.client 0) (by decide +kernel) (by decide +kernel) (by decide +kernel) (by decide +kernel)
    (by decide +kernel)
  refine ⟨congrArg Prod.fst (hasked (.signature 1) rfl), ?_⟩
  exact (hunasked (.bytecodes 1 0x1000) (fun h => by cases h)).1

/-- A thread passes for a class where all capabilities are granted. -/
theorem thread_passes_for_class :
    let a := Past.threadAndClass.agent
    a.vm.capabilities =
        some ⟨true, true, true, true, true, true, true, true, true, true, true, true, true⟩ ∧
      a.tracker.target? a.vm 1 = some 10 ∧ a.vm.classAt? 10 = none ∧
      (Agent.serve (.client 0) (.staticValues 1 []) a).1 ≠ .error .invalidClass ∧
      (Agent.serve (.client 0) (.bytecodes 1 0x1000) a).1 ≠ .error .invalidClass ∧
      (Agent.serve (.client 0) (.setEvent EventKind.classPrepare.code .none [.classOnly 1]) a).1 ≠
        .error .invalidClass := by
  decide +kernel

end DebugAgent
