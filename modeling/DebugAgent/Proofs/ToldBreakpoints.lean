import DebugAgent.Proofs.ToldPositions

/-!
# Breakpoints at positions that have been told

The location that a position has been told by goes back to the agent with a request for a breakpoint.
The index has lost its sign on the way and finds it again, the identifier of the class is the one in
use, and the machine is asked for the breakpoint unless another request has asked for it already.
When the breakpoint is reached the position is worked out anew, and it is the same.
-/

namespace DebugAgent

open DebugAgent.Action Command Registration Tracking

variable {a b d : Agent} {method : MethodId} {index : CodeIndex} {location : Location}

/-! ### Setting a breakpoint -/

/-- Breakpoints can be set, and the position is in the code of its method. -/
structure Vm.Breakable (vm : Vm) (method : MethodId) (index : CodeIndex) : Prop where
  granted : vm.grants Capabilities.canGenerateBreakpointEvents
  inCode : ∃ start finish, vm.methodLocation method = .ok (start, finish) ∧
    start ≤ index ∧ index ≤ finish
  pos : 0 ≤ index

namespace Vm.Breakable

variable {vm vm' : Vm}

theorem keepsWorld (h : vm.Breakable method index) (hworld : vm.KeepsWorld vm') :
    vm'.Breakable method index where
  granted := (grants_congr hworld.capabilities _).trans h.granted
  inCode := by
    rw [methodLocation, methodOf, hworld.methods]
    exact h.inCode
  pos := h.pos

/-- A native method has no code at an index that is not negative. -/
theorem declared (h : vm.Breakable method index) : ∃ decl, vm.methods.get? method = some decl ∧
    decl.spec.start ≤ index ∧ index ≤ decl.spec.finish := by
  obtain ⟨start, finish, hcode, hstart, hfinish⟩ := h.inCode
  have hpos := h.pos
  cases hdecl : vm.methods.get? method with
  | none => simp [methodLocation, methodOf, hdecl, Except.map] at hcode
  | some decl =>
      refine ⟨decl, rfl, ?_⟩
      simp only [methodLocation, methodOf, hdecl, Except.map] at hcode
      split at hcode
      · cases hcode
        exact absurd (Int.le_trans hpos hfinish) (by decide)
      · cases hcode
        exact ⟨hstart, hfinish⟩

theorem setBreakpoint (h : vm.Breakable method index) (hfree : (method, index) ∉ vm.breakpoints) :
    (Vm.setBreakpoint method index).perform vm = (.ok (), vm.addBreakpoint (method, index)) := by
  obtain ⟨decl, hdecl, hstart, hfinish⟩ := h.declared
  have hin : ¬ (index < decl.spec.start ∨ decl.spec.finish < index) :=
    not_or.mpr ⟨Int.not_lt.mpr hstart, Int.not_lt.mpr hfinish⟩
  exact setBreakpoint_ok h.granted hdecl hin hfree

end Vm.Breakable

/-- The machine is asked for the breakpoint unless another request needs it already. -/
theorem holds_breakable (hshared : BreakpointsShared a) (hcan : a.vm.Breakable method index) :
    ∃ b, Holds a (some (method, index)) b ∧
      (holdBreakpoint (method, index)).perform a = (.ok (), b) := by
  cases hcount : a.requests.breakpoints.get? (method, index) with
  | some count => exact holds_more hcount
  | none =>
      have hfree : (method, index) ∉ a.vm.breakpoints := by
        intro hset
        have hcounted := hshared.counted (method, index)
        rw [hcount, if_neg (Nat.ne_of_gt ((hshared.set _).mp hset))] at hcounted
        cases hcounted
      obtain ⟨decl, hdecl, -⟩ := hcan.declared
      exact holds_first hcount ⟨hcan.granted, by simp [hdecl]⟩ hfree (hcan.setBreakpoint hfree)

theorem enables_forAll {kind : CallbackKind} (hdemand : a.vm.demandFor kind = .ok ()) :
    ∃ b, Enables a (kind, none) b ∧ (enable (kind, none)).perform a = (.ok (), b) := by
  have henables : ∃ b, Enables a (kind, none) b ∧ Tidy a b ∧
      (enable (kind, none)).perform a = (.ok (), b) := by
    cases hheld : a.requests.notifications.get? (kind, none) with
    | some held => exact enables_more hheld
    | none => exact enables_first hheld (.refl a.vm) .all (.refl a.vm) rfl hdemand
  obtain ⟨b, henables, -, henable⟩ := henables
  exact ⟨b, henables, henable⟩

theorem acquires_breakable (hshared : BreakpointsShared a) (hcan : a.vm.Breakable method index) :
    ∃ b c, Holds a (some (method, index)) b ∧ Enables b (.breakpoint, none) c ∧
      (Registration.acquire ⟨some (method, index), (.breakpoint, none)⟩).perform a =
        (.ok (), c) := by
  obtain ⟨b, hholds, hhold⟩ := holds_breakable hshared hcan
  have hdemand : b.vm.demandFor .breakpoint = .ok () := by
    obtain ⟨set, counts, rfl⟩ := hholds.eq
    exact Vm.demand_ok hcan.granted
  obtain ⟨c, henables, henable⟩ := enables_forAll hdemand
  refine ⟨b, c, hholds, henables, ?_⟩
  simp [Registration.acquire, perform_bind, attempt, hhold, henable]

/-- The position that a location names is found again. -/
theorem perform_filterOf_location (h : a.Alone) (hnamed : a.NamesPosition method index location)
    (hpos : 0 ≤ index) (h64 : index < 0x8000000000000000) :
    (filterOf .breakpoint (.locationOnly location)).perform a =
      (.ok (.locationOnly method index), a.spend 8) := by
  obtain ⟨decl, body, hdecl, htarget, -, hlocation⟩ := hnamed
  generalize location.classId = id at htarget hlocation
  subst hlocation
  have hmethod : checkMethod method = .ok () :=
    if_neg (Nat.ne_of_gt (h.numbered.declared hdecl).1)
  have hdropped := Vm.dropLocal_newLocal_self h.sound.refs decl.cls
  -- the index is told without a sign, and there is room for one
  have hindex : Int.bmod index 0x10000000000000000 = index :=
    Int.bmod_eq_of_le (Int.le_trans (by decide) hpos) (Int.lt_of_lt_of_le h64 (by decide))
  simp [filterOf, perform_bind, Action.ofExcept, hmethod, EventModifier.appliesTo, withClass,
    perform_withRef_live htarget, Agent.opened, Agent.setVm, hdropped, Agent.spend,
    Int.max_eq_left hpos, hindex]

/-- A request for a breakpoint that nothing narrows further. -/
def Request.plainBreakpoint (id : RequestId) (policy : SuspendPolicy) (method : MethodId)
    (index : CodeIndex) : Request :=
  ⟨id, .breakpoint, policy, [.locationOnly method index],
    ⟨some (method, index), (.breakpoint, none)⟩⟩

/-- A breakpoint is set at the position that the location names. -/
theorem perform_setBreakpoint (h : a.Alone) (hnamed : a.NamesPosition method index location)
    (hcan : a.vm.Breakable method index) (h64 : index < 0x8000000000000000)
    (policy : SuspendPolicy) :
    ∃ after, (EventRequest.setBreakpoint location policy).perform a =
        (.ok a.requests.nextId, after) ∧
      after.requests.requests =
        a.requests.requests ++ [.plainBreakpoint a.requests.nextId policy method index] := by
  have hsupported : EventKind.breakpoint.isSupported = true := rfl
  have hfilter := perform_filterOf_location h hnamed hcan.pos h64
  have hneeded : needed .breakpoint [.locationOnly method index] =
      .ok ⟨some (method, index), (.breakpoint, none)⟩ := rfl
  have hshared : BreakpointsShared (a.spend 8) :=
    h.shared.of_requestsAt (fun _ => rfl) (fun _ => rfl) rfl fun _ hallow => hallow
  obtain ⟨b, c, hholds, henables, hacquire⟩ := acquires_breakable hshared
    (hcan.keepsWorld (Vm.keepsWorld_spend a.vm 8))
  obtain ⟨hnext, htable⟩ : c.requests.nextId = a.requests.nextId ∧
      c.requests.requests = a.requests.requests := by
    obtain ⟨set, counts, rfl⟩ := hholds.eq
    obtain ⟨vm, enabled, held, -, rfl⟩ := henables.eq
    exact ⟨rfl, rfl⟩
  let added := c.requests.add .breakpoint policy [.locationOnly method index]
    ⟨some (method, index), (.breakpoint, none)⟩
  refine ⟨{ c with requests := added }, ?_, ?_⟩
  · simp [EventRequest.setBreakpoint, EventRequest.set, EventKind.ofCode_code, register,
      perform_bind, Action.ofExcept, hsupported, hfilter, hneeded, hacquire, hnext, added,
      Except.map]
  · simp [RequestTable.add, hnext, htable, added, Request.plainBreakpoint]

/-- The client that sets a breakpoint at a position that has been told is given a request for it. -/
theorem serve_setBreakpoint (h : a.Alone) (hnamed : a.NamesPosition method index location)
    (hcan : a.vm.Breakable method index) (h64 : index < 0x8000000000000000)
    (hattach : a.vm.attachFails = false) (caller : NativeThread) (policy : SuspendPolicy) :
    ∃ after, Agent.serve caller (.setBreakpoint location policy) a =
        (.ok (.request a.requests.nextId), after) ∧
      after.requests.requests =
        a.requests.requests ++ [.plainBreakpoint a.requests.nextId policy method index] := by
  have hworld := Vm.KeepsWorld.attach a.vm caller
  have hnear : (a.setVm (a.vm.attach caller).2).NamesPosition method index location := by
    obtain ⟨decl, body, hdecl, htarget, hclass, hlocation⟩ := hnamed
    refine ⟨decl, body, ?_, (tracker_target?_attach a caller _).trans htarget, ?_, hlocation⟩
    · exact (congrArg (Table.get? · method) hworld.methods).trans hdecl
    · exact (congrFun hworld.classes decl.cls).trans hclass
  obtain ⟨after, hset, htable⟩ := perform_setBreakpoint (h.attached hattach caller) hnear
    (hcan.keepsWorld hworld) h64 policy
  refine ⟨after, ?_, htable⟩
  rw [Agent.serve_eq_map hattach (by simp) rfl]
  dsimp only
  rw [hset]
  rfl

/-- A breakpoint more is set, and no other. -/
theorem isBreakpoint_of_added (ha : a.Alone) (hb : b.Alone) {id : RequestId}
    {policy : SuspendPolicy} (htable : b.requests.requests =
      a.requests.requests ++ [.plainBreakpoint id policy method index]) (m : MethodId)
    (j : CodeIndex) :
    b.vm.isBreakpoint m j ↔ a.vm.isBreakpoint m j ∨ m = method ∧ j = index := by
  have hadded : (Request.plainBreakpoint id policy method index).breaksAt (m, j) ↔
      m = method ∧ j = index := by
    have hpositions : (Request.plainBreakpoint id policy method index).filters.filterMap
        positionOf? = [(method, index)] := rfl
    rw [Request.breaksAt, hpositions]
    simpa [Request.plainBreakpoint] using and_congr eq_comm eq_comm
  rw [hb.shared.isBreakpoint_iff hb.needsKept, ha.shared.isBreakpoint_iff ha.needsKept, htable]
  simp only [List.mem_append, List.mem_singleton, or_and_right, exists_or, exists_eq_left, hadded]

/-! ### The request as long as it is registered -/

/-- A request that takes note of nothing stays as it is. -/
theorem Agent.Later.find?_of_registered {may : Op → Bool} (hlater : a.Later may d)
    (ho : Orderly a) {request : Request} (hfound : a.requests.find? request.id = some request)
    (hfixed : ∀ ctx, request.advance ctx = request)
    (hregistered : d.requests.contains request.id) :
    d.requests.find? request.id = some request := by
  have hold : request.id < a.requests.nextId := ho.fresh request (List.mem_of_find?_eq_some hfound)
  have hsame : ∀ {later}, d.requests.find? request.id = some later → later = request := by
    clear hregistered
    induction hlater with
    | now => exact fun hlater => Option.some.inj (hlater.symm.trans hfound)
    | @apply b hbefore op _ _ ih =>
        intro later hlater
        have hb : Orderly b := ho.unfolds (hbefore.unfolds ho)
        have hstill := Int.lt_of_lt_of_le hold (nextId_le_of_unfolds (hbefore.unfolds ho))
        obtain ⟨before, hbefore, rfl⟩ := find?_before_apply hb hstill hlater
        rw [ih hbefore]
        cases b.accepted? request op with
        | none => rfl
        | some ctx => exact hfixed ctx
  obtain ⟨later, hlater⟩ := Option.isSome_iff_exists.mp hregistered
  rw [hlater, hsame hlater]

/-! ### Breakpoints that are reached -/

section Hits

variable {near : Agent} {hit : Op} {thread : HeapId} {h : Handle} {caller : NativeThread}
  {c : Callback Handle} {m : MethodId} {j : CodeIndex} {id : RequestId} {policy : SuspendPolicy}

/-- The agent is called back for a breakpoint that is set, if anybody waits for breakpoints. -/
theorem calledBack_of_occurrence
    (hoccurs : d.occurrence? hit = some (.breakpoint (some thread) m j))
    (henabled : d.vm.isEnabled .breakpoint none) (hset : d.vm.isBreakpoint m j) :
    ∃ near caller c, d.calledBack? hit = some (near, caller, c) := by
  cases hit with
  | callback caller c => exact ⟨d, caller, c, rfl⟩
  | deliver caller happening =>
      have hdelivers : d.vm.delivers happening := by
        cases happening with
        | breakpoint =>
            cases hoccurs
            simp [Vm.delivers, Callback.kind, henabled, hset]
        | _ => cases hoccurs
      exact ⟨_, _, _, calledBack?_deliver hdelivers caller⟩
  | _ => cases hoccurs

/-- The callback carries a reference to the thread. -/
theorem breakpoint_of_occurrence (hb : d.vm.RefsBounded)
    (hcalled : d.calledBack? hit = some (near, caller, c))
    (hoccurs : d.occurrence? hit = some (.breakpoint (some thread) m j)) :
    ∃ h, c = .breakpoint h m j ∧ near.vm.target? h = some thread := by
  have hresolved := (occurrence?_of_calledBack hb hcalled).symm.trans hoccurs
  cases c with
  | breakpoint h m' j' =>
      injection Option.some.inj hresolved with hthread hmethod hindex
      subst hmethod hindex
      exact ⟨h, rfl, hthread⟩
  | _ => cases hresolved

/-- The callback can be captured if the method is declared by a class. -/
theorem perform_capture_breakpoint (ho : Orderly a)
    (hgrant : a.vm.grants Capabilities.canTagObjects) (htarget : a.vm.target? h = some thread)
    (hheld : (a.vm.heap[thread]?).isSome) (hdeclared : (a.vm.declaredIn m).isSome)
    (wanted : Bool) :
    ∃ ctx b, (Capture.capture wanted (.breakpoint h m j)).perform a = (.ok ctx, b) := by
  obtain ⟨who, b, hscene, hb, -, hworld⟩ := Capture.perform_scene ho hgrant htarget hheld
  have hgrantb := (Vm.grants_congr hworld.capabilities _).trans hgrant
  have hspot := Capture.perform_site hb hgrantb m j
  have hlooks := (@Capture.looks_site Control.Any m j).evolves hb
  rw [hworld.declaredIn] at hspot
  cases hsite : (Capture.site m j).perform b with
  | mk outcome last =>
      rw [hsite] at hspot hlooks
      cases outcome with
      | error stop =>
          have hnone : a.vm.declaredIn m = none := Option.map_eq_none_iff.mp hspot.symm
          rw [hnone] at hdeclared
          cases hdeclared
      | ok spot =>
          have hlast : Orderly last := hb.evolves hlooks
          obtain ⟨receiver, used, hreceiver⟩ := Capture.spends_receiver hlast.refs wanted h m
          rw [Capture.capture, perform_bind_of_ok hscene, perform_bind_of_ok hsite,
            perform_bind_of_ok hreceiver]
          exact ⟨_, _, rfl⟩

/-- What is seen of a breakpoint is where it has been reached. -/
theorem position_of_sighting (hb : d.vm.RefsBounded) {sighting : Sighting}
    (hsighting : d.sighting? hit = some sighting)
    (hoccurs : d.occurrence? hit = some (.breakpoint (some thread) m j)) :
    sighting.ctx.position = some (m, j) := by
  obtain ⟨kind, ctx, seen⟩ := sighting
  obtain ⟨near, caller, c, hcalled, hcaptured, -⟩ := Agent.sighting?_eq_some hsighting
  obtain ⟨h, rfl, -⟩ := breakpoint_of_occurrence hb hcalled hoccurs
  have hreturns : (Capture.capture (near.wantsReceiver .breakpoint) (.breakpoint h m j)).Returns
      fun ctx => ctx.position = some (m, j) :=
    returns_after fun _ => returns_after fun _ => returns_after fun _ => returns_pure rfl
  exact hreturns _ ctx seen (perform_capture_of_captured hcaptured)

/-- The request accepts what has been captured at its position and nothing else. -/
theorem requestFires_plainBreakpoint {ctx : Context} :
    a.requestFires ctx (.plainBreakpoint id policy method index) ↔
      ctx.position = some (method, index) := by
  simp [Agent.requestFires, Request.fires, Request.plainBreakpoint, Filter.accepts]

theorem isEnabled_of_registered (halone : d.Alone) {request : Request}
    (hmem : request ∈ d.requests.requests) (hkind : request.kind = .breakpoint) :
    d.vm.isEnabled .breakpoint none := by
  obtain ⟨config, ops, rfl⟩ := halone.exists_reached
  exact enabled_of_wanted (.event hmem (by simp [hkind]) (by rw [hkind]; rfl))

/-- What happens at a position of a declared method can be seen. -/
theorem exists_sighting_of_breakpoint (halone : d.Alone) (hnames : d.vm.Has hit.objects)
    (hattach : d.vm.attachFails = false) (hgrant : d.vm.grants Capabilities.canTagObjects)
    (hdeclared : (d.vm.declaredIn m).isSome)
    (hcalled : d.calledBack? hit = some (near, caller, .breakpoint h m j))
    (htarget : near.vm.target? h = some thread) :
    ∃ ctx seen, d.sighting? hit = some ⟨.breakpoint, ctx, seen⟩ := by
  obtain ⟨hnear, hshape⟩ := halone.calledBack hnames hcalled
  have hattached : near.vm.attachFails = false :=
    (keepsWorld_of_calledBack hcalled).attachFails.trans hattach
  let seeing := near.setVm (near.vm.attach caller).2
  have hworld : d.vm.KeepsWorld seeing.vm :=
    (keepsWorld_of_calledBack hcalled).trans (.attach near.vm caller)
  have hheld : seeing.vm.target? h = some thread :=
    (target?_attach near.vm caller h).trans htarget
  have hthere := (hshape.attached hattached caller).closed.target? hheld
  obtain ⟨ctx, seen, hcapture⟩ : ∃ ctx seen,
      (Capture.capture (near.wantsReceiver .breakpoint) (.breakpoint h m j)).perform seeing =
        (.ok ctx, seen) := by
    apply perform_capture_breakpoint (hnear.toOrderly.attached caller) _ hheld
    · simp [hthere]
    · rw [hworld.declaredIn]
      exact hdeclared
    · exact (Vm.grants_congr hworld.capabilities _).trans hgrant
  have hcaptured : near.captured caller (.breakpoint h m j) = (.ok ctx, seen) := by
    rw [Agent.captured, seqRight_eq_bind, perform_bind_of_ok (perform_attach hattached caller)]
    exact hcapture
  refine ⟨ctx, seen, ?_⟩
  simp only [Agent.sighting?, hcalled, hcaptured]
  rfl

/-- The request fires where its position is reached, and nowhere else. -/
theorem fires_plainBreakpoint_iff (halone : d.Alone) (hnames : d.vm.Has hit.objects)
    (hattach : d.vm.attachFails = false) (hgrant : d.vm.grants Capabilities.canTagObjects)
    (hdeclared : (d.vm.declaredIn method).isSome)
    (hfound : d.requests.find? id = some (.plainBreakpoint id policy method index))
    (hoccurs : d.occurrence? hit = some (.breakpoint (some thread) m j)) :
    id ∈ d.fires hit ↔ m = method ∧ j = index := by
  have ho := halone.sound.toOrderly
  have hmem := List.mem_of_find?_eq_some hfound
  have hpositive : id ≠ 0 := by
    obtain ⟨config, ops, rfl⟩ := halone.exists_reached
    exact Int.ne_of_gt ((idsPositive_reached [] config ops).2 _ hmem)
  rw [mem_fires_iff ho hit hpositive]
  constructor
  · rintro ⟨request, hrequest, haccepted⟩
    cases hrequest.symm.trans hfound
    obtain ⟨ctx, hctx⟩ := Option.isSome_iff_exists.mp haccepted
    obtain ⟨sighting, hsighting, haccepts, -⟩ := accepted?_eq_some.mp hctx
    have hposition := requestFires_plainBreakpoint.mp (accepts_iff.mp haccepts).2
    cases (position_of_sighting ho.refs hsighting hoccurs).symm.trans hposition
    exact ⟨rfl, rfl⟩
  · rintro ⟨rfl, rfl⟩
    have hset : d.vm.isBreakpoint m j := by
      refine (halone.shared.isBreakpoint_iff halone.needsKept m j).mpr ⟨_, hmem, ?_⟩
      simp [Request.breaksAt, Request.plainBreakpoint, positionOf?]
    obtain ⟨near, caller, c, hcalled⟩ :=
      calledBack_of_occurrence hoccurs (isEnabled_of_registered halone hmem rfl) hset
    obtain ⟨h, rfl, htarget⟩ := breakpoint_of_occurrence ho.refs hcalled hoccurs
    obtain ⟨ctx, seen, hsighting⟩ :=
      exists_sighting_of_breakpoint halone hnames hattach hgrant hdeclared hcalled htarget
    have hposition := position_of_sighting ho.refs hsighting hoccurs
    have haccepts : Sighting.accepts ⟨.breakpoint, ctx, seen⟩ (.plainBreakpoint id policy m j) :=
      accepts_iff.mpr ⟨rfl, requestFires_plainBreakpoint.mpr hposition⟩
    have haccepted := accepted?_eq_some.mpr ⟨_, hsighting, haccepts, rfl⟩
    exact ⟨_, hfound, Option.isSome_iff_exists.mpr ⟨ctx, haccepted⟩⟩

/-- What is told of a position that has been told is the same location. -/
theorem location_of_hit (halone : d.Alone) (hnames : d.vm.Has hit.objects)
    (hnamed : d.NamesPosition method index location)
    (hoccurs : d.occurrence? hit = some (.breakpoint (some thread) method index)) {event : Event}
    (hmem : event ∈ d.eventsUnder id hit) : event.details.location? = some location := by
  have hafter : (d.apply hit).Alone := halone.apply hit hnames
  have hback : hit.givesBack = false := by
    cases hit <;> first | rfl | cases hoccurs
  have hnext : d.Later (fun _ => true) (d.apply hit) := .apply .now rfl hnames
  have hlater : (d.apply hit).NamesPosition method index location :=
    hnamed.later halone hnext (hnamed.knows.apply halone.sound.toOrderly hback)
  rw [Agent.eventsUnder, List.mem_filter, Agent.sends?] at hmem
  cases hcalled : d.calledBack? hit with
  | none => simp [hcalled] at hmem
  | some call =>
      obtain ⟨near, caller, c⟩ := call
      cases hfired : near.fired? caller c with
      | none => simp [hcalled, hfired] at hmem
      | some fired =>
          have hin : event ∈ fired.events.events := by simpa [hcalled, hfired] using hmem.1
          have htells := (halone.tells_of_fired hnames hcalled hfired event hin).2
          have hoccurred := occurrence?_of_calledBack halone.sound.refs hcalled
          have hresolved : c.resolved near.vm = .breakpoint (some thread) method index :=
            Option.some.inj (hoccurred.symm.trans hoccurs)
          rw [hresolved] at htells
          generalize event.details = details at htells ⊢
          cases htells with
          | breakpoint _ hposition =>
              exact congrArg some (hlater.unique hafter.sound hposition.named)

end Hits

/-- A breakpoint can be set with every location that the client has been told, of a frame or in an
event, for as long as the identifier of the class is in use.  It is set at just the position that the
location was told for, whatever other requests there are at this position.  From then on, for as long
as it is registered, the request fires where a thread reaches this position and nowhere else, and its
events tell the same location again.  Indexes of the machine have 64 bits with a sign. -/
theorem breakpoint_at_told_position {a : Agent} (h : a.Alone) {op : Op}
    (hnames : a.vm.Has op.objects) {method : MethodId} {index : CodeIndex} {location : Location}
    (hreports : a.Reports method index location op) {b : Agent}
    (hlater : (a.apply op).Later (fun _ => true) b) (huse : b.Knows location.classId)
    {start finish : CodeIndex} (hcode : b.vm.methodLocation method = .ok (start, finish))
    (hin : start ≤ index ∧ index ≤ finish) (hpos : 0 ≤ index) (h64 : index < 0x8000000000000000)
    (hattach : b.vm.attachFails = false)
    (hgrant : b.vm.grants Capabilities.canGenerateBreakpointEvents) (caller : NativeThread)
    (policy : SuspendPolicy) :
    ∃ id after, Agent.serve caller (.setBreakpoint location policy) b = (.ok (.request id), after) ∧
      (∀ m j, after.vm.isBreakpoint m j ↔ b.vm.isBreakpoint m j ∨ m = method ∧ j = index) ∧
      ∀ d, after.Later (fun _ => true) d → d.requests.contains id → d.vm.attachFails = false →
        ∀ hit thread m j, d.vm.Has hit.objects →
          d.occurrence? hit = some (.breakpoint (some thread) m j) →
            (id ∈ d.fires hit ↔ m = method ∧ j = index) ∧
            (d.Knows location.classId →
              ∀ event ∈ d.eventsUnder id hit, event.details.location? = some location) := by
  have hnow := h.apply op hnames
  have hb := hnow.later hlater
  have hnamed := (hreports.named h hnames).later hnow hlater huse
  have hcan : b.vm.Breakable method index := ⟨hgrant, ⟨start, finish, hcode, hin⟩, hpos⟩
  obtain ⟨after, hserve, htable⟩ :=
    serve_setBreakpoint hb hnamed hcan h64 hattach caller policy
  -- the command is an operation of the run like any other
  have hset : b.Later (fun _ => true) after := by
    have happly : b.apply (.command caller (.setBreakpoint location policy)) = after :=
      congrArg Prod.snd hserve
    rw [← happly]
    exact .apply .now rfl Vm.has_nil
  have hafter := hb.later hset
  refine ⟨_, after, hserve, isBreakpoint_of_added hb hafter htable, ?_⟩
  intro d hlast hregistered hattached hit thread m j hhit hoccurs
  have hd := hafter.later hlast
  have hrun := hset.trans hlast
  let request : Request := .plainBreakpoint b.requests.nextId policy method index
  have hadded : after.requests.find? request.id = some request := by
    refine (find?_eq_some_iff hafter.sound.toOrderly).mpr ⟨?_, rfl⟩
    rw [htable]
    exact List.mem_append_right _ (List.mem_singleton_self _)
  have hfound := hlast.find?_of_registered hafter.sound.toOrderly hadded (fun _ => rfl) hregistered
  have htags := (Vm.grants_congr hrun.endures.capabilities _).trans (hnamed.tags hb)
  have hiff := fires_plainBreakpoint_iff hd hhit hattached htags
    (hnamed.declaredIn hb hrun) hfound hoccurs
  refine ⟨hiff, fun hknows event hmem => ?_⟩
  obtain ⟨rfl, rfl⟩ := hiff.mp (mem_fires_iff_eventsUnder.mpr (List.ne_nil_of_mem hmem))
  exact location_of_hit hd hhit (hnamed.later hb hrun hknows) hoccurs hmem

/-- A thread, known as object 1, that runs a method. -/
def inMethod : Agent :=
  (Agent.start Vm.fresh {}).run
    [.setup (.defineClass "LMain;"), .setup (.addMethod 9 { name := "run", signature := "()V" }),
      .setup (.spawnThread "main"), .setup (.pushFrame 10 0x1000 5),
      .command (.client 0) .allThreads]

/-- Two requests break at the position of a frame, and both fire when the thread comes back to it. -/
theorem breakpoint_shared_at_frame : inMethod.Alone ∧
    let position : Location := ⟨.classType, 3, 0x1000, 5⟩
    let told : Op := .command (.client 0) (.frames 1 0 (-1))
    let b := (inMethod.apply told).apply (.command (.client 0) (.setBreakpoint position .all))
    let after := (Agent.serve (.client 0) (.setBreakpoint position .none) b).2
    let hit : Op := .deliver (.client 0) (.breakpoint 10 0x1000 5)
    b.vm.isBreakpoint 0x1000 5 ∧ after.vm.isBreakpoint 0x1000 5 ∧ after.fires hit = [1, 2] ∧
      ∀ event ∈ after.eventsUnder 2 hit, event.details.location? = some position := by
  have halone : inMethod.Alone := by
    apply Agent.Alone.run (.start {})
    decide +kernel
  refine ⟨halone, ?_⟩
  intro position told b after hit
  have hnamed : inMethod.tracker.target? inMethod.vm 1 = some 10 := by decide +kernel
  obtain ⟨frame, hframe, hat⟩ : ∃ frame, inMethod.vm.frameAt? 10 0 = some frame ∧
      (frame.method, frame.location) = (0x1000, 5) := Option.map_eq_some_iff.mp (by decide +kernel)
  obtain ⟨hmethod, hindex⟩ := Prod.mk.inj hat
  have hinfos : (Agent.serve (.client 0) (.frames 1 0 (-1)) inMethod).1 =
      .ok (.frames [⟨0, position⟩]) := by decide +kernel
  have hreports : inMethod.Reports 0x1000 5 position told :=
    .frame hinfos hnamed List.mem_cons_self hframe hmethod hindex rfl
  have hlater : (inMethod.apply told).Later (fun _ => true) b := .apply .now rfl Vm.has_nil
  have huse : b.Knows position.classId := knows_iff.mpr (by decide +kernel)
  have hcode : b.vm.methodLocation 0x1000 = .ok (0, 100) := by decide +kernel
  obtain ⟨id, last, hserve, hset, hhits⟩ := breakpoint_at_told_position halone Vm.has_nil hreports
    hlater huse hcode (by decide) (by decide) (by decide) (by decide +kernel) (by decide +kernel)
    (.client 0) .none
  have hanswer : (Agent.serve (.client 0) (.setBreakpoint position .none) b).1 =
      .ok (.request 2) := by decide +kernel
  have hlast : last = after := (congrArg Prod.snd hserve).symm
  have hid : id = 2 :=
    Reply.request.inj (Except.ok.inj ((congrArg Prod.fst hserve).symm.trans hanswer))
  rw [hlast] at hset hhits
  rw [hid] at hhits
  have hheld : after.requests.contains 2 := by decide +kernel
  have hnames : after.vm.Has hit.objects := by decide +kernel
  have huse' : after.Knows position.classId := knows_iff.mpr (by decide +kernel)
  obtain ⟨-, htells⟩ := hhits after .now hheld (by decide +kernel) hit 10 0x1000 5 hnames rfl
  exact ⟨by decide +kernel, (hset 0x1000 5).mpr (.inr ⟨rfl, rfl⟩), by decide +kernel, htells huse'⟩

end DebugAgent
