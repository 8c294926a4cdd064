import DebugAgent.Proofs.Session

/-!
# Requests among other requests

The requests that are registered side by side share a lot: what is captured of a callback, the
receiver of the running method that is looked up if one of them asks for it, the notifications of the
machine, and the pass in which those that expire are removed.  None of this shows.  What becomes of a
request in a callback depends on the machine, on the identifiers in use, on the request itself and on
the thread that its notification is held for.

Commands that go by the machine and the identifiers alone are the same for agents that differ in
everything else.  Capturing a callback is one of them, up to the receiver, and the receiver is known
wherever a request needs it.
-/

namespace DebugAgent

open DebugAgent.Action Command Tracking

variable {a b : Agent} {request : Request} {op : Op} {α β : Type}

/-! ### Agents in one world -/

namespace Agent

/-- Another agent in the place of this one, with its machine and the identifiers in use. -/
def onto (a b : Agent) : Agent := { b with vm := a.vm, tracker := a.tracker }

/-- The agent without a request.  What the request needed is not given up. -/
def drop (a : Agent) (id : RequestId) : Agent := { a with requests := a.requests.remove id }

/-- The events of an operation that are under an identifier of a request. -/
def eventsUnder (a : Agent) (id : RequestId) (op : Op) : List Event :=
  ((a.sends? op).elim [] EventSet.events).filter fun event => event.requestId = id

end Agent

/-- Two agents have the same machine and the same identifiers in use. -/
structure SameWorld (a b : Agent) : Prop where
  vm : b.vm = a.vm
  tracker : b.tracker = a.tracker

theorem Orderly.drop (ho : Orderly a) (id : RequestId) : Orderly (a.drop id) where
  refs := ho.refs
  counts := ho.counts
  sorted := ho.sorted.filter _
  fresh := fun request hmem => ho.fresh request (List.mem_filter.mp hmem).1

theorem sameWorld_drop (a : Agent) (id : RequestId) : SameWorld a (a.drop id) := ⟨rfl, rfl⟩

theorem notifications_drop (a : Agent) (id : RequestId) :
    (a.drop id).requests.notifications = a.requests.notifications := rfl

theorem SameWorld.onto_eq (h : SameWorld a b) : a.onto b = b := by
  rw [Agent.onto, ← h.vm, ← h.tracker]

/-- The machine calls the agent back, or some native thread does so in its place. -/
def Op.callsBack : Op → Bool
  | .deliver _ _ | .callback _ _ => true
  | _ => false

/-- The command goes by the machine and the identifiers in use, and changes nothing else. -/
def Impartial (x : Command α) : Prop :=
  ∀ a b : Agent, x.perform (a.onto b) = ((x.perform a).1, (x.perform a).2.onto b)

section Impartial

theorem impartial_pure (r : α) : Impartial (pure r) := fun _ _ => rfl

theorem impartial_bind {x : Command α} {f : α → Command β} (hx : Impartial x)
    (hf : ∀ r, Impartial (f r)) : Impartial (x >>= f) := by
  intro a b
  rw [perform_bind, perform_bind, hx a b]
  generalize x.perform a = outcome
  obtain ⟨stop | r, near⟩ := outcome
  · rfl
  · exact hf r near b

theorem impartial_map (f : α → β) {x : Command α} (hx : Impartial x) : Impartial (f <$> x) := by
  rw [map_eq_pure_bind]
  exact impartial_bind hx fun r => impartial_pure (f r)

theorem impartial_ite {c : Prop} [Decidable c] {x y : Command α} (hx : Impartial x)
    (hy : Impartial y) : Impartial (if c then x else y) := by
  split
  · exact hx
  · exact hy

theorem impartial_see (f : Vm → α) : Impartial (see f) := fun _ _ => rfl

theorem impartial_ask (query : Vm → Except JvmtiError α) : Impartial (ask query) := fun _ _ => rfl

theorem impartial_tryAsk (query : Vm → Except JvmtiError α) : Impartial (tryAsk query) :=
  fun _ _ => rfl

theorem impartial_touch (f : Vm → α × Vm) : Impartial (touch f) := fun _ _ => rfl

theorem impartial_adjust (f : Vm → Vm) : Impartial (adjust f) := fun _ _ => rfl

theorem impartial_call (x : Call α) : Impartial (call x) := fun _ _ => rfl

theorem impartial_tryCall (x : Call α) : Impartial (tryCall x) := fun _ _ => rfl

theorem impartial_native (x : Action Vm ProtocolError α) : Impartial (native x) := fun _ _ => rfl

theorem impartial_identifiers : Impartial (Action.look Agent.tracker) := fun _ _ => rfl

theorem impartial_setTracker (tracker : Tracker) : Impartial (setTracker tracker) := fun _ _ => rfl

theorem impartial_guard (condition : Bool) (cause : ProtocolError) :
    Impartial (Action.guard condition cause) := by
  cases condition <;> exact fun _ _ => rfl

theorem impartial_withLocal (h : Handle) {x : Command α} (hx : Impartial x) :
    Impartial (withLocal h x) := by
  intro a b
  rw [perform_withLocal, perform_withLocal, hx a b]
  rfl

theorem impartial_attach (caller : NativeThread) : Impartial (attach caller) :=
  impartial_bind (impartial_see _) fun _ => impartial_bind (impartial_guard _ _) fun _ =>
    impartial_adjust _

end Impartial

/-! ### Tracking and capturing -/

namespace Tracking

theorem impartial_trackNew (h : Handle) : Impartial (trackNew h) := by
  refine impartial_ite (impartial_pure 0) ?_
  refine impartial_bind (impartial_call _) fun tag => impartial_bind impartial_identifiers ?_
  intro tracker
  split
  · exact impartial_bind (impartial_setTracker _) fun _ => impartial_pure _
  · refine impartial_bind (impartial_call _) fun _ => impartial_bind (impartial_touch _) fun _ => ?_
    exact impartial_bind (impartial_guard _ _) fun _ =>
      impartial_bind (impartial_setTracker _) fun _ => impartial_pure _

theorem impartial_trackClass (h : Handle) : Impartial (trackClass h) :=
  impartial_bind (impartial_guard _ _) fun _ => impartial_bind (impartial_ask _) fun _ =>
    impartial_bind (impartial_ask _) fun _ => impartial_bind (impartial_trackNew h) fun _ =>
      impartial_pure _

theorem impartial_trackObject (h : Handle) (declared : TypeTag) :
    Impartial (trackObject h declared) := by
  refine impartial_ite (impartial_pure _) (impartial_bind (impartial_native _) fun cls => ?_)
  refine impartial_withLocal cls (impartial_bind (impartial_guard _ _) fun _ => ?_)
  exact impartial_bind (impartial_ask _) fun _ => impartial_bind (impartial_trackNew h) fun _ =>
    impartial_pure _

end Tracking

namespace Capture

theorem impartial_scene (thread : Handle) : Impartial (scene thread) :=
  impartial_bind (impartial_trackNew thread) fun _ => impartial_bind (impartial_see _) fun _ =>
    impartial_pure _

theorem impartial_site (method : MethodId) (index : CodeIndex) : Impartial (site method index) := by
  refine impartial_bind (impartial_call _) fun cls => impartial_withLocal cls ?_
  refine impartial_bind (impartial_guard _ _) fun _ => ?_
  refine impartial_bind (impartial_bind (impartial_trackClass cls) fun _ => impartial_pure _) ?_
  intro location
  exact impartial_bind (impartial_ask _) fun _ => impartial_bind (impartial_see _) fun _ =>
    impartial_pure _

theorem impartial_receiver (wanted : Bool) (thread : Handle) (method : MethodId) :
    Impartial (receiver wanted thread method) := by
  refine impartial_ite (impartial_bind (impartial_tryAsk _) ?_) (impartial_pure none)
  rintro (_ | modifiers)
  · exact impartial_pure none
  · refine impartial_ite (impartial_pure none) (impartial_bind (impartial_tryCall _) ?_)
    rintro (_ | _ | h)
    · exact impartial_pure none
    · exact impartial_pure none
    · exact impartial_withLocal h (impartial_see _)

theorem impartial_thrownClass (thrown : Handle) : Impartial (thrownClass thrown) :=
  impartial_bind (impartial_native _) fun cls =>
    impartial_withLocal cls (impartial_bind (impartial_guard _ _) fun _ => impartial_see _)

theorem impartial_capture (wantsReceiver : Bool) (c : Callback Handle) :
    Impartial (capture wantsReceiver c) := by
  cases c with
  | vmDeath => exact impartial_pure _
  | threadStart thread | threadEnd thread =>
      exact impartial_bind (impartial_scene thread) fun _ => impartial_pure _
  | classPrepare thread prepared =>
      refine impartial_bind (impartial_scene thread) fun _ => ?_
      refine impartial_bind (impartial_touch _) fun cls => impartial_withLocal cls ?_
      refine impartial_bind (impartial_guard _ _) fun _ => ?_
      refine impartial_bind (impartial_trackClass cls) fun _ => ?_
      exact impartial_bind (impartial_ask _) fun _ => impartial_bind (impartial_ask _) fun _ =>
        impartial_bind (impartial_see _) fun _ => impartial_pure _
  | breakpoint thread method index | methodExit thread method index =>
      refine impartial_bind (impartial_scene thread) fun _ => ?_
      exact impartial_bind (impartial_site method index) fun _ =>
        impartial_bind (impartial_receiver _ thread method) fun _ => impartial_pure _
  | singleStep thread method index =>
      refine impartial_bind (impartial_scene thread) fun _ => ?_
      refine impartial_bind (impartial_site method index) fun _ => ?_
      exact impartial_bind (impartial_see _) fun _ => impartial_bind (impartial_see _) fun _ =>
        impartial_bind (impartial_receiver _ thread method) fun _ => impartial_pure _
  | exception thread method index thrown handler =>
      refine impartial_bind (impartial_scene thread) fun _ => ?_
      refine impartial_bind (impartial_site method index) fun _ => ?_
      refine impartial_bind (impartial_thrownClass thrown) fun _ => ?_
      refine impartial_bind (impartial_trackObject thrown .object) fun _ => ?_
      cases handler with
      | none =>
          exact impartial_bind (impartial_pure none) fun _ =>
            impartial_bind (impartial_receiver _ thread method) fun _ => impartial_pure _
      | some position =>
          refine impartial_bind (impartial_map some (impartial_site position.1 position.2)) ?_
          exact fun _ =>
            impartial_bind (impartial_receiver _ thread method) fun _ => impartial_pure _
  | methodEntry thread method =>
      refine impartial_bind (impartial_scene thread) fun _ => ?_
      refine impartial_bind (impartial_ask _) fun _ => ?_
      exact impartial_bind (impartial_site method _) fun _ =>
        impartial_bind (impartial_receiver _ thread method) fun _ => impartial_pure _

/-! ### The receiver -/

/-- The thread that runs a method when the agent is called back, and the method, if the method may
have a receiver that is of interest. -/
def running? : Callback Handle → Option (Handle × MethodId)
  | .breakpoint thread method _ | .singleStep thread method _ | .exception thread method _ _ _
  | .methodEntry thread method | .methodExit thread method _ => some (thread, method)
  | .vmDeath | .threadStart _ | .threadEnd _ | .classPrepare _ _ => none

/-- The receiver of what is running, if a filter asks for it, along with the rest. -/
def withReceiver (wanted : Bool) (c : Callback Handle) (x : Command Context) : Command Context :=
  match running? c with
  | some (thread, method) => do
      let ctx ← x
      let receiver ← receiver wanted thread method
      return { ctx with receiver }
  | none => x

/-- The receiver is looked up last of all. -/
theorem capture_eq (wanted : Bool) (c : Callback Handle) :
    capture wanted c = withReceiver wanted c (capture false c) := by
  cases c with
  | exception thread method index thrown handler =>
      cases handler <;> simp [capture, withReceiver, running?, receiver, atSite]
  | vmDeath | threadStart | threadEnd | classPrepare => rfl
  | _ => simp [capture, withReceiver, running?, receiver, atSite]

/-- What is read of a local variable is given out. -/
theorem perform_getLocal {thread : Handle} {stored : Stored}
    (hlocal : a.vm.localVariable thread 0 0 .object = .ok stored) :
    (tryCall (Vm.getLocal thread 0 0 .object)).perform a =
      (.ok (.ok (a.vm.giveOut stored).1), a.setVm (a.vm.giveOut stored).2) := by
  simp [tryCall, Vm.getLocal, attempt, perform_bind, hlocal]

/-- Looking up the receiver uses up reference numbers and does nothing else. -/
theorem spends_runningReceiver (hb : a.vm.RefsBounded) (thread : Handle) (method : MethodId) :
    ∃ answer used, (runningReceiver thread method).perform a = (.ok answer, a.spend used) := by
  simp only [runningReceiver, perform_bind, tryAsk, perform_look]
  cases a.vm.methodModifiers method with
  | error cause => exact ⟨none, 0, rfl⟩
  | ok modifiers =>
      dsimp only
      split
      · exact ⟨none, 0, rfl⟩
      rw [perform_bind]
      cases hlocal : a.vm.localVariable thread 0 0 .object with
      | error cause =>
          have hcall : (tryCall (Vm.getLocal thread 0 0 .object)).perform a =
              (.ok (.error cause), a) := by
            simp [tryCall, Vm.getLocal, attempt, perform_bind, hlocal, Agent.setVm]
          rw [hcall]
          exact ⟨none, 0, rfl⟩
      | ok stored =>
          rw [perform_getLocal hlocal]
          cases stored with
          | primitive value => exact ⟨none, 0, rfl⟩
          | reference object =>
              cases object with
              | none => exact ⟨none, 0, rfl⟩
              | some object =>
                  have hdropped := Vm.dropLocal_newLocal_self hb object
                  have htarget : (a.vm.newLocal object).2.target? (a.vm.newLocal object).1 =
                      some object := Vm.target?_newRef a.vm .localRef object
                  refine ⟨some object, 8, ?_⟩
                  simp [Vm.giveOut, see, htarget, hdropped, Agent.spend, Agent.setVm]

theorem spends_receiver (hb : a.vm.RefsBounded) (wanted : Bool) (thread : Handle)
    (method : MethodId) :
    ∃ answer used, (receiver wanted thread method).perform a = (.ok answer, a.spend used) := by
  cases wanted with
  | false => exact ⟨none, 0, rfl⟩
  | true => exact spends_runningReceiver hb thread method

/-- Whether the receiver is looked up makes a difference to the receiver only, and to the reference
numbers that are used up. -/
theorem capture_cases (ho : Orderly a) (c : Callback Handle) :
    (∃ stop near, ∀ wanted, (capture wanted c).perform a = (.error stop, near)) ∨
      ∃ (ctx : Context) (near : Agent), ∀ wanted, ∃ receiver used,
        (capture wanted c).perform a = (.ok { ctx with receiver }, near.spend used) := by
  have hlooks := (@looks_capture Control.Any false c).evolves ho
  cases hcapture : (capture false c).perform a with
  | mk outcome near =>
      rw [hcapture] at hlooks
      have hnear : Orderly near := ho.evolves hlooks
      cases outcome with
      | error stop =>
          refine .inl ⟨stop, near, fun wanted => ?_⟩
          rw [capture_eq, withReceiver]
          split
          · simp [perform_bind, hcapture]
          · exact hcapture
      | ok ctx =>
          refine .inr ⟨ctx, near, fun wanted => ?_⟩
          rw [capture_eq, withReceiver]
          split
          · rename_i thread method hrunning
            obtain ⟨answer, used, hreceiver⟩ := spends_receiver hnear.refs wanted thread method
            exact ⟨answer, used, by simp [perform_bind, hcapture, hreceiver, Except.map]⟩
          · exact ⟨ctx.receiver, 0, hcapture⟩

end Capture

/-! ### What two agents see -/

/-- Two agents see the same of a callback, but maybe for the receiver. -/
structure Sighting.Alike (s t : Sighting) : Prop where
  kind : t.kind = s.kind
  heap : t.seen.vm.heap = s.seen.vm.heap
  refs : t.seen.vm.refs = s.seen.vm.refs
  tracker : t.seen.tracker = s.seen.tracker
  ctx : ∃ receiver, t.ctx = { s.ctx with receiver }
  /-- Both look up the receiver, or neither does. -/
  receiver : s.seen.wantsReceiver s.kind = t.seen.wantsReceiver t.kind → t.ctx = s.ctx

theorem calledBack?_onto (a b : Agent) (op : Op) :
    (a.onto b).calledBack? op = (a.calledBack? op).map (Prod.map (Agent.onto · b) id) := by
  cases op with
  | deliver caller c =>
      have hsame : (a.onto b).vm.delivers c = a.vm.delivers c := rfl
      simp only [Agent.calledBack?, hsame]
      cases a.vm.delivers c <;> rfl
  | _ => rfl

/-- What two agents in one world capture of a callback. -/
theorem captured_onto (ho : Orderly a) (b : Agent) (caller : NativeThread) (c : Callback Handle) :
    (∃ stop seen, a.captured caller c = (.error stop, seen) ∧
      (a.onto b).captured caller c = (.error stop, seen.onto b)) ∨
    ∃ (ctx : Context) (seen : Agent) (receiver receiver' : Option HeapId) (used used' : Nat),
      a.captured caller c = (.ok { ctx with receiver }, seen.spend used) ∧
      (a.onto b).captured caller c =
        (.ok { ctx with receiver := receiver' }, (seen.spend used').onto b) ∧
      (a.wantsReceiver c.kind.eventKind = b.wantsReceiver c.kind.eventKind →
        receiver' = receiver) := by
  have hsame : (a.onto b).wantsReceiver c.kind.eventKind = b.wantsReceiver c.kind.eventKind := rfl
  have himpartial := impartial_bind (impartial_attach caller) fun _ =>
    Capture.impartial_capture (b.wantsReceiver c.kind.eventKind) c
  have honto : (a.onto b).captured caller c = _ := himpartial a b
  rw [honto, Agent.captured, seqRight_eq_bind]
  generalize a.wantsReceiver c.kind.eventKind = wanted
  generalize b.wantsReceiver c.kind.eventKind = wanted'
  rw [perform_bind, perform_bind]
  cases hfails : a.vm.attachFails with
  | true =>
      have hrefused : (attach caller).perform a = (.error (.refused .internal), a) := by
        simp [attach, perform_bind, see, hfails]
      rw [hrefused]
      exact .inl ⟨_, _, rfl, rfl⟩
  | false =>
      rw [perform_attach hfails]
      dsimp only
      rcases Capture.capture_cases (ho.attached caller) c with
        ⟨stop, seen, hcapture⟩ | ⟨ctx, seen, hcapture⟩
      · exact .inl ⟨stop, seen, hcapture wanted, by rw [hcapture wanted']⟩
      · obtain ⟨receiver, used, hfirst⟩ := hcapture wanted
        obtain ⟨receiver', used', hsecond⟩ := hcapture wanted'
        refine .inr ⟨ctx, seen, receiver, receiver', used, used', hfirst, by rw [hsecond], ?_⟩
        rintro rfl
        have hsame := congrArg Prod.fst (hfirst.symm.trans hsecond)
        have hctx := Except.ok.inj hsame
        exact (congrArg Context.receiver hctx).symm

theorem sightings_alike (ho : Orderly a) (hworld : SameWorld a b) (op : Op) :
    (a.sighting? op = none ∧ b.sighting? op = none) ∨
      ∃ s t, a.sighting? op = some s ∧ b.sighting? op = some t ∧ s.Alike t := by
  rw [← hworld.onto_eq]
  simp only [Agent.sighting?, calledBack?_onto]
  cases hcalled : a.calledBack? op with
  | none => exact .inl ⟨rfl, rfl⟩
  | some call =>
      obtain ⟨near, caller, c⟩ := call
      obtain ⟨hnear, hrequests, -⟩ := calledBack ho hcalled
      simp only [Option.map_some, Prod.map_apply, id_eq]
      rcases captured_onto hnear b caller c with
        ⟨stop, seen, hfirst, hsecond⟩ |
        ⟨ctx, seen, receiver, receiver', used, used', hfirst, hsecond, hboth⟩
      · rw [hfirst, hsecond]
        exact .inl ⟨rfl, rfl⟩
      · rw [hfirst, hsecond]
        have hleaves := (captured_leaves near caller c).1
        rw [hfirst] at hleaves
        refine .inr ⟨_, _, rfl, rfl, ⟨rfl, rfl, rfl, rfl, ⟨receiver', rfl⟩, fun hwants => ?_⟩⟩
        have hsame : near.wantsReceiver c.kind.eventKind = b.wantsReceiver c.kind.eventKind := by
          rw [Agent.wantsReceiver, ← hleaves]
          exact hwants
        rw [hboth hsame]

/-! ### One request in two tables -/

theorem Filter.accepts_receiver {filter : Filter} (hfilter : filter.isInstanceOnly = false) (vm : Vm)
    (tracker : Tracker) (ctx : Context) (receiver : Option HeapId) (stepThread : Option Handle) :
    filter.accepts vm tracker { ctx with receiver } stepThread =
      filter.accepts vm tracker ctx stepThread := by
  cases filter with
  | instanceOnly => cases hfilter
  | _ => rfl

theorem Request.advance_receiver (request : Request) (ctx : Context) (receiver : Option HeapId) :
    request.advance { ctx with receiver } = request.advance ctx := by
  have hfilter : Filter.advance { ctx with receiver } = Filter.advance ctx := by
    funext filter
    cases filter <;> rfl
  rw [Request.advance, hfilter, Request.advance]

theorem wantsReceiver_of_mem (hmem : request ∈ a.requests.requests)
    (hwants : request.wantsReceiver) : a.wantsReceiver request.kind := 
  List.any_eq_true.mpr ⟨request, List.mem_filter.mpr ⟨hmem, decide_eq_true rfl⟩, hwants⟩

/-- What two agents see of a callback is accepted by a request of both of them in the same way. -/
theorem Sighting.Alike.accepts {s t : Sighting} (h : s.Alike t)
    (hmem : request ∈ s.seen.requests.requests) (hmem' : request ∈ t.seen.requests.requests)
    (hheld : t.seen.requests.notifications.get? request.registration.notification =
      s.seen.requests.notifications.get? request.registration.notification) :
    t.accepts request = s.accepts request := by
  have hstep : t.seen.requests.stepThread? request = s.seen.requests.stepThread? request := by
    rw [RequestTable.stepThread?, hheld, ← RequestTable.stepThread?]
  rw [Bool.eq_iff_iff, accepts_iff, accepts_iff, h.kind]
  refine and_congr_right fun hkind => ?_
  simp only [Agent.requestFires, Request.fires, List.all_eq_true, h.tracker, hstep]
  refine forall₂_congr fun filter hfilter => ?_
  rw [Filter.accepts_congr h.heap h.refs]
  cases hwants : request.wantsReceiver with
  | true =>
      -- the request itself has both agents look up the receiver
      have hfirst := wantsReceiver_of_mem hmem hwants
      have hsecond := wantsReceiver_of_mem hmem' hwants
      rw [h.receiver (by rw [h.kind, ← hkind, hfirst, hsecond])]
  | false =>
      obtain ⟨receiver, hctx⟩ := h.ctx
      have hother : filter.isInstanceOnly = false := by
        simpa using List.any_eq_false.mp hwants filter hfilter
      rw [hctx, Filter.accepts_receiver hother]

/-- An identifier is that of one request only. -/
theorem firing_under (ho : Orderly a) (hmem : request ∈ a.requests.requests) (kind : EventKind)
    (ctx : Context) : (a.firing kind ctx).filter (fun other => other.id = request.id) =
      if request ∈ a.firing kind ctx then [request] else [] := by
  have hsorted := firing_pairwise ho.sorted kind ctx
  have hnodup : (a.firing kind ctx).Nodup := hsorted.imp fun hlt heq => by
    rw [heq] at hlt
    exact Int.lt_irrefl _ hlt
  have hsame : ∀ other ∈ a.firing kind ctx,
      decide (other.id = request.id) = decide (other = request) := by
    intro other hother
    have hid : other.id = request.id → other = request :=
      eq_of_id_eq ho hmem (mem_firing.mp hother).1
    apply decide_eq_decide.mpr
    exact ⟨hid, congrArg Request.id⟩
  rw [List.filter_congr hsame, List.filter_eq, hnodup.count]
  split <;> rfl

theorem eventsOf_under (ho : Orderly a) (hmem : request ∈ a.requests.requests) (kind : EventKind)
    (ctx : Context) : (a.eventsOf kind ctx).filter (fun event => event.requestId = request.id) =
      (Firing.unrequested kind).filter (fun event => event.requestId = request.id) ++
        if Sighting.accepts ⟨kind, ctx, a⟩ request then [⟨request.kind, request.id, ctx.details⟩]
        else [] := by
  have hfires : request ∈ a.firing kind ctx ↔ Sighting.accepts ⟨kind, ctx, a⟩ request := by
    rw [mem_firing, accepts_iff]
    exact and_iff_right hmem
  have hunder := firing_under ho hmem kind ctx
  rw [Agent.eventsOf, List.filter_append, List.filter_map, Function.comp_def, hunder]
  by_cases haccepts : request ∈ a.firing kind ctx
  · rw [if_pos haccepts, if_pos (hfires.mp haccepts), List.map_singleton,
      (mem_firing.mp haccepts).2.1]
  · rw [if_neg haccepts, if_neg (mt hfires.mpr haccepts), List.map_nil]

/-- What an operation has for the session is what the rule of firing tells of what is seen. -/
theorem sends?_eq (ho : Orderly a) (op : Op) : a.sends? op = (a.sighting? op).bind fun sighting =>
    (sighting.seen.firedIn? sighting.kind sighting.ctx).map Fired.events := by
  rw [Agent.sends?, Agent.sighting?]
  cases hcalled : a.calledBack? op with
  | none => rfl
  | some call =>
      obtain ⟨near, caller, c⟩ := call
      obtain ⟨hnear, -, -⟩ := calledBack ho hcalled
      cases hcaptured : near.captured caller c with
      | mk outcome seen =>
          cases outcome with
          | error stop => simp [(onCallback_of_not_captured hnear hcaptured).1, hcaptured]
          | ok ctx => simp [(onCallback_of_captured hnear hcaptured).1, hcaptured]

/-- What is seen in an operation is seen before anything is done about it. -/
theorem evolves_of_sighting (ho : Orderly a) {sighting : Sighting}
    (hsighting : a.sighting? op = some sighting) : Evolves a sighting.seen := by
  obtain ⟨kind, ctx, seen⟩ := sighting
  obtain ⟨near, caller, c, hcalled, hcaptured, -⟩ := Agent.sighting?_eq_some hsighting
  have hnear : Evolves a near := by
    cases op with
    | callback =>
        cases hcalled
        exact .refl
    | deliver _ happening =>
        rw [Agent.calledBack?] at hcalled
        dsimp only at hcalled
        split at hcalled
        · cases hcalled
          have htouches := Vm.touch_enterCallback happening a.vm
          exact .single (.machine (Vm.conserves_of_touches htouches ho.refs))
        · cases hcalled
    | _ => cases hcalled
  have hseen := evolves_captured caller c (ho.evolves hnear)
  rw [hcaptured] at hseen
  exact hnear.trans hseen

theorem orderly_of_sighting (ho : Orderly a) {sighting : Sighting}
    (hsighting : a.sighting? op = some sighting) : Orderly sighting.seen :=
  ho.evolves (evolves_of_sighting ho hsighting)

/-- Of the events of an operation that are under the identifier of a registered request, one is told
because the request asked for it, if it accepts what is seen. -/
theorem eventsUnder_eq (ho : Orderly a) (hmem : request ∈ a.requests.requests) (op : Op) :
    a.eventsUnder request.id op = (a.sighting? op).elim [] fun sighting =>
      ((Firing.unrequested sighting.kind).filter fun event => event.requestId = request.id) ++
        if sighting.accepts request then [⟨request.kind, request.id, sighting.ctx.details⟩]
        else [] := by
  rw [Agent.eventsUnder, sends?_eq ho]
  cases hsighting : a.sighting? op with
  | none => rfl
  | some sighting =>
      have hin : request ∈ sighting.seen.requests.requests := by
        rwa [requests_of_sighting ho hsighting]
      have hevents := events_of_firedIn sighting.seen sighting.kind sighting.ctx
      have hunder := eventsOf_under (orderly_of_sighting ho hsighting) hin sighting.kind sighting.ctx
      rw [Option.bind_some, Option.elim_map, Function.comp_def, hevents, hunder]
      rfl

theorem mem_fires_iff_eventsUnder {id : RequestId} : id ∈ a.fires op ↔ a.eventsUnder id op ≠ [] := by
  rw [Agent.fires, Agent.eventsUnder, Agent.sends?]
  cases a.calledBack? op with
  | none => simp
  | some call =>
      obtain ⟨near, caller, c⟩ := call
      dsimp only
      rw [Agent.firedEvents, Option.elim_map]
      simp [Function.comp_def, List.filter_eq_nil_iff]

theorem Op.clears_of_callsBack (hop : op.callsBack) (request : Request) :
    a.clears request op = false := by
  cases op with
  | command => cases hop
  | _ => rfl

theorem Sighting.Alike.accepts_registered {s t : Sighting} (ha : Orderly a) (hb : Orderly b)
    (hs : a.sighting? op = some s) (ht : b.sighting? op = some t) (halike : s.Alike t)
    (hmem : request ∈ a.requests.requests) (hmem' : request ∈ b.requests.requests)
    (hheld : b.requests.notifications.get? request.registration.notification =
      a.requests.notifications.get? request.registration.notification) :
    t.accepts request = s.accepts request := by
  have hrequests := requests_of_sighting ha hs
  have hrequests' := requests_of_sighting hb ht
  exact halike.accepts (hrequests ▸ hmem) (hrequests' ▸ hmem') (by rw [hrequests, hrequests', hheld])

/-- What becomes of a request in a callback is the same next to any other requests. -/
theorem alike_among_others (ha : Orderly a) (hb : Orderly b) (hworld : SameWorld a b)
    (hmem : request ∈ a.requests.requests) (hmem' : request ∈ b.requests.requests)
    (hheld : b.requests.notifications.get? request.registration.notification =
      a.requests.notifications.get? request.registration.notification)
    (hop : op.callsBack) :
    a.eventsUnder request.id op = b.eventsUnder request.id op ∧
      (a.apply op).requests.find? request.id = (b.apply op).requests.find? request.id := by
  have hspared : ∀ c : Agent, c.clears request op = false :=
    fun _ => Op.clears_of_callsBack hop request
  rw [eventsUnder_eq ha hmem, eventsUnder_eq hb hmem', find?_apply ha hmem (hspared a),
    find?_apply hb hmem' (hspared b), Agent.accepted?, Agent.accepted?]
  rcases sightings_alike ha hworld op with ⟨hnone, hnone'⟩ | ⟨s, t, hs, ht, halike⟩
  · rw [hnone, hnone']
    exact ⟨rfl, rfl⟩
  · have haccepts : t.accepts request = s.accepts request :=
      halike.accepts_registered ha hb hs ht hmem hmem' hheld
    obtain ⟨receiver, hctx⟩ := halike.ctx
    rw [hs, ht, Option.elim_some, Option.elim_some, halike.kind]
    simp only [haccepts, hctx]
    refine ⟨trivial, ?_⟩
    cases s.accepts request with
    | false => rfl
    | true => simp only [if_true, Request.advance_receiver]

/-- Whatever else is registered, a request fires on the same callbacks.  The event has the same
details, the request takes note of it in the same way, and it expires or stays registered. -/
theorem fires_alike_among_others (ha : Orderly a) (hb : Orderly b) (hworld : SameWorld a b)
    (hmem : request ∈ a.requests.requests) (hmem' : request ∈ b.requests.requests)
    (hheld : b.requests.notifications.get? request.registration.notification =
      a.requests.notifications.get? request.registration.notification)
    (hop : op.callsBack) :
    (request.id ∈ a.fires op ↔ request.id ∈ b.fires op) ∧
      a.eventsUnder request.id op = b.eventsUnder request.id op ∧
      (a.apply op).requests.find? request.id = (b.apply op).requests.find? request.id := by
  obtain ⟨hevents, hfound⟩ := alike_among_others ha hb hworld hmem hmem' hheld hop
  rw [mem_fires_iff_eventsUnder, mem_fires_iff_eventsUnder, hevents]
  exact ⟨Iff.rfl, rfl, hfound⟩

/-- A breakpoint is hit in a thread whose receiver only the other one of two requests looks at. -/
theorem breakpoint_hit_beside_receiver_filter :
    let here : EventModifier := .locationOnly ⟨.classType, 4, 0x1000, 4⟩
    let a := Past.twoThreads.agent.run [.setup (.setLocal 10 0 0 (.reference (some 11))),
      .command (.client 0) (.setEvent 2 .none [.count 2, here]),
      .command (.client 0) (.setEvent 2 .all [.instanceOnly 2, here])]
    let hit : Op := .deliver (.client 0) (.breakpoint 10 0x1000 4)
    a.fires hit = [1, 2] ∧ 1 ∈ (a.drop 2).fires hit ∧
      (a.apply hit).requests.find? 1 = ((a.drop 2).apply hit).requests.find? 1 := by
  intro here a hit
  have ho : Orderly a := Past.twoThreads.inOrder.toOrderly.run _
  have hfires : a.fires hit = [1, 2] := by decide +kernel
  let request : Request := ⟨1, .breakpoint, .none, [.count 2, .locationOnly 0x1000 4],
    ⟨some (0x1000, 4), (.breakpoint, none)⟩⟩
  obtain ⟨hboth, -, hafter⟩ := @fires_alike_among_others a (a.drop 2) request hit ho (ho.drop 2)
    (sameWorld_drop a 2) (by decide +kernel) (by decide +kernel) (by rw [notifications_drop]) rfl
  exact ⟨hfires, hboth.mp (by rw [hfires]; decide), hafter⟩

end DebugAgent
