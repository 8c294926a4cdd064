import DebugAgent.Proofs.Change

/-!
# Commands as series of changes

Every command of the client leads from an orderly state to the next by tidy changes, with an
engagement at the end if it sets a request.  Reading commands come with their lists of inspections;
what is left are the commands on requests and on identifiers given back.
-/

namespace DebugAgent

open DebugAgent.Action Command Registration Tracking
open Relation (ReflTransGen)

variable {may : Control → Prop} {α β : Type} {a b c : Agent}

/-! ### Inspections are changes -/

theorem Inspection.change (h : Inspection may a b) (hb : a.vm.RefsBounded) : TidyChange a b := by
  cases h with
  | glance h => exact .machine (h.touch.conserves hb)
  | attach _ caller => exact .machine (Vm.frame_attach caller).conserves
  | halt _ h => exact .machine (h.touch.conserves hb)
  | resume _ h => exact .machine (h.touch.conserves hb)
  | recount hentry => exact .recount hentry (Nat.succ_pos _)
  | enrol htag hnew hgrant => exact .enrol htag hnew hgrant

theorem evolves_of_inspections (ho : Orderly a) (h : ReflTransGen (Inspection may) a b) :
    Evolves a b := by
  induction h with
  | refl => exact .refl
  | tail _ hinspection ih => exact ih.tail (hinspection.change (ho.evolves ih).refs)

/-! ### Series of changes -/

theorem ages_of_evolves (h : Evolves a b) : a.vm.Ages b.vm := by
  induction h with
  | refl => exact .refl a.vm
  | tail _ hstep ih => exact ih.trans hstep.change.ages

theorem Evolves.leads (h : Evolves a b) : Leads a b := .inl h

theorem Leads.head (h : Evolves a b) (h' : Leads b c) : Leads a c := by
  rcases h' with hevolves | ⟨d, hevolves, hengagement, htidy⟩
  · exact .inl (h.trans hevolves)
  · exact .inr ⟨d, h.trans hevolves, hengagement, htidy⟩

/-- A command that makes changes, perhaps with an engagement at the end. -/
def Progresses (x : Command α) : Prop := ∀ a, Orderly a → Leads a (x.perform a).2

theorem Command.Looks.evolves {x : Command α} (hx : Looks Control.Any x) (ho : Orderly a) :
    Evolves a (x.perform a).2 :=
  evolves_of_inspections ho (hx.makes a)

theorem Command.Looks.progresses {x : Command α} (hx : Looks Control.Any x) : Progresses x :=
  fun _ ho => (hx.evolves ho).leads

theorem progresses_map (f : α → β) {x : Command α} (hx : Progresses x) : Progresses (f <$> x) := by
  intro a ho
  rw [perform_map]
  exact hx a ho

theorem progresses_done {x : Command Unit} (hx : Progresses x) : Progresses (done x) :=
  progresses_map (fun _ => Reply.done) hx

/-- The first command makes changes only, so the second one may end with an engagement. -/
theorem leads_bind {x : Command α} {f : α → Command β} (hx : Evolves a (x.perform a).2)
    (hf : ∀ r b, x.perform a = (.ok r, b) → Leads b ((f r).perform b).2) :
    Leads a ((x >>= f).perform a).2 := by
  rw [perform_bind]
  cases h : x.perform a with
  | mk result b =>
      rw [h] at hx
      cases result with
      | ok r => exact .head hx (hf r b h)
      | error stop => exact .inl hx

theorem evolves_bind {x : Command α} {f : α → Command β} (hx : Evolves a (x.perform a).2)
    (hf : ∀ r b, x.perform a = (.ok r, b) → Evolves b ((f r).perform b).2) :
    Evolves a ((x >>= f).perform a).2 := by
  rw [perform_bind]
  cases h : x.perform a with
  | mk result b =>
      rw [h] at hx
      cases result with
      | ok r => exact hx.trans (hf r b h)
      | error stop => exact hx

theorem progresses_bind {x : Command α} {f : α → Command β} (hx : Looks Control.Any x)
    (hf : ∀ r, Progresses (f r)) : Progresses (x >>= f) := by
  intro a ho
  have hevolves := hx.evolves ho
  refine leads_bind hevolves fun r b hperform => hf r b (ho.evolves ?_)
  rwa [hperform] at hevolves

theorem perform_done_snd (x : Command Unit) (a : Agent) :
    ((done x).perform a).2 = (x.perform a).2 := by
  rw [done, perform_bind]
  rcases x.perform a with ⟨_ | _, b⟩ <;> rfl

/-- What the client is told of a command that stopped. -/
def Stop.told : Stop ProtocolError → ProtocolError
  | .refused cause => cause
  | .broken => .internal

theorem answer_snd (caller : NativeThread) (x : Command α) (a : Agent) :
    (answer caller x a).2 = ((attach caller >>= fun _ => x).perform a).2 := by
  rw [← seqRight_eq_bind]
  rw [answer]
  split <;> simp_all

theorem attachFails_attach (vm : Vm) (caller : NativeThread) :
    (vm.attach caller).2.attachFails = vm.attachFails := by
  rw [Vm.attach]
  split <;> rfl

theorem target?_attach (vm : Vm) (caller : NativeThread) (h : Handle) :
    (vm.attach caller).2.target? h = vm.target? h := by
  have hframe : vm.Frame (vm.attach caller).2 := Vm.frame_attach caller
  simp [Vm.target?, hframe.refs]

theorem grants_attach (vm : Vm) (caller : NativeThread) (capability : Capabilities → Bool) :
    (vm.attach caller).2.grants capability = vm.grants capability := by
  have hframe : vm.Frame (vm.attach caller).2 := Vm.frame_attach caller
  simp [Vm.grants, hframe.capabilities]

/-- A native thread that can be attached is attached. -/
theorem perform_attach (hfails : a.vm.attachFails = false) (caller : NativeThread) :
    (attach caller).perform a = (.ok (), a.setVm (a.vm.attach caller).2) := by
  simp [attach, perform_bind, see, adjust, hfails]

/-- A native thread that can be attached has its command run. -/
theorem answer_of_attaching (hfails : a.vm.attachFails = false) (caller : NativeThread)
    (x : Command α) :
    answer caller x a =
      let outcome := x.perform (a.setVm (a.vm.attach caller).2)
      (outcome.1.mapError Stop.told, outcome.2) := by
  rw [answer, seqRight_eq_bind, perform_bind, perform_attach hfails]
  dsimp only
  generalize x.perform (a.setVm (a.vm.attach caller).2) = outcome
  obtain ⟨(cause | _) | result, b⟩ := outcome <;> rfl

/-- Where a native thread cannot be attached its command is not carried out. -/
theorem answer_of_not_attaching (hfails : a.vm.attachFails = true) (caller : NativeThread)
    (x : Command α) : answer caller x a = (.error .internal, a) := by
  simp [answer, seqRight_eq_bind, perform_bind, attach, see, hfails]

theorem answer_snd_of_attaching (hfails : a.vm.attachFails = false) (caller : NativeThread)
    (x : Command α) :
    (answer caller x a).2 = (x.perform (a.setVm (a.vm.attach caller).2)).2 := by
  rw [answer_of_attaching hfails]

theorem leads_answer {x : Command α} (hx : Progresses x) (caller : NativeThread) (ho : Orderly a) :
    Leads a (answer caller x a).2 := by
  rw [answer_snd]
  exact progresses_bind (.attach trivial caller) (fun _ => hx) a ho

theorem evolves_answer {x : Command α} (hx : ∀ b, Orderly b → Evolves b (x.perform b).2)
    (caller : NativeThread) (ho : Orderly a) : Evolves a (answer caller x a).2 := by
  rw [answer_snd]
  have hattach := (Looks.attach trivial caller).evolves ho
  refine evolves_bind hattach fun _ b hperform => hx b (ho.evolves ?_)
  rwa [hperform] at hattach

/-! ### Giving identifiers back -/

theorem makes_release (id : ObjectId) : (Tracking.release id).Makes TidyChange := by
  intro a
  cases hentry : a.tracker.entries.get? id with
  | none =>
      have hstate : ((Tracking.release id).perform a).2 = a := by
        simp [Tracking.release, perform_bind, hentry]
      rw [hstate]
  | some entry =>
      have hstate : ((Tracking.release id).perform a).2 = forget id entry a := by
        simp [Tracking.release, perform_bind, hentry]
      rw [hstate]
      exact .single (.forget hentry)

theorem makes_dispose (id : ObjectId) (count : Nat) :
    (Tracking.dispose id count).Makes TidyChange := by
  intro a
  cases hentry : a.tracker.entries.get? id with
  | none =>
      have hstate : ((Tracking.dispose id count).perform a).2 = a := by
        simp [Tracking.dispose, perform_bind, hentry]
      rw [hstate]
  | some entry =>
      by_cases hleft : entry.references - count = 0
      · have hstate : ((Tracking.dispose id count).perform a).2 = forget id entry a := by
          simp [Tracking.dispose, perform_bind, hentry, hleft]
        rw [hstate]
        exact .single (.forget hentry)
      · have hstate : ((Tracking.dispose id count).perform a).2 =
            { a with
              tracker := a.tracker.setReferences id entry (entry.references - count) } := by
          simp [Tracking.dispose, perform_bind, hentry, hleft, setTracker]
        rw [hstate]
        exact .single (.recount hentry (Nat.pos_of_ne_zero hleft))

theorem makes_disposeObjects (requests : List DisposeRequest) :
    (Machine.disposeObjects requests).Makes TidyChange := by
  refine makes_forM (fun request => ?_) requests
  have hdispose := makes_dispose request.objectId request.count
  exact makes_map _ (makes_attempt hdispose)

theorem progresses_of_changes {x : Command α} (hx : x.Makes TidyChange) : Progresses x :=
  fun a _ => .inl (hx a)

/-! ### Setting and clearing requests -/

theorem progresses_register (kind : EventKind) (policy : SuspendPolicy)
    (modifiers : List EventModifier) : Progresses (register kind policy modifiers) := by
  refine progresses_bind (looks_guard _ _) fun _ => ?_
  refine progresses_bind (looks_mapM (looks_filterOf kind) modifiers) fun filters => ?_
  intro a ho
  cases hneeded : needed kind filters with
  | error e =>
      simp only [perform_bind, Action.ofExcept, perform_inspect, mapError_error]
      exact .inl .refl
  | ok registration =>
      rcases acquire_cases registration ho.refs ho.counts with
        ⟨cause, vm, hconserves, hacquire⟩ | ⟨b, c, hholds, henables, htidy, hacquire⟩
      · simp only [perform_bind, Action.ofExcept, perform_inspect, mapError_ok, hacquire]
        exact .inl (.single (.machine hconserves))
      · simp only [perform_bind, Action.ofExcept, perform_inspect, mapError_ok, hacquire,
          perform_look, perform_change, perform_pure]
        have hregistered : Tidy c { c with
            requests := c.requests.add kind policy filters registration } :=
          tidy_of_same (fun h => h) (held?_congr rfl rfl)
        refine .inr ⟨a, .refl, .request hneeded hholds henables, htidy.trans ?_ hregistered⟩
        exact fun hids => henables.idsBounded (hholds.idsBounded hids)

theorem progresses_set (kindCode : Nat) (policy : SuspendPolicy) (modifiers : List EventModifier) :
    Progresses (EventRequest.set kindCode policy modifiers) :=
  progresses_bind (looks_ofExcept _) fun kind => progresses_register kind policy modifiers

/-- What the removal of requests comes to: they are gone from the table and give up what they needed
of the machine. -/
structure Removed (requests : List Request) (a b : Agent) : Prop where
  evolves : Evolves a b
  left : b.requests.requests =
    a.requests.requests.filter fun r => r.id ∉ requests.map Request.id
  tracker : b.tracker = a.tracker
  session : b.session = a.session

theorem Removed.refl (a : Agent) : Removed [] a a :=
  ⟨.refl, (List.filter_eq_self.mpr fun _ _ => rfl).symm, rfl, rfl⟩

theorem Removed.trans {requests later : List Request} (h : Removed requests a b)
    (h' : Removed later b c) : Removed (requests ++ later) a c where
  evolves := h.evolves.trans h'.evolves
  left := by
    rw [h'.left, h.left, List.filter_filter]
    apply List.filter_congr
    intro request _
    rw [Bool.eq_iff_iff, List.map_append]
    simp only [Bool.and_eq_true, decide_eq_true_eq, List.mem_append, not_or]
    exact and_comm
  tracker := h'.tracker.trans h.tracker
  session := h'.session.trans h.session

/-- A registered request can be removed under any other guise with its identifier. -/
theorem perform_remove {request registered : Request} (ho : Orderly a)
    (hmem : registered ∈ a.requests.requests) (hid : registered.id = request.id)
    (hregistration : registered.registration = request.registration) :
    ∃ b, TidyChange a b ∧ Removed [request] a b ∧
      (Registration.remove request).perform a = (.ok (), b) := by
  obtain ⟨b, c, hreleases, hdisables, hremove⟩ := remove_releases request ho.counts
  rw [← hid, ← hregistration] at hreleases
  rw [← hregistration] at hdisables
  have hchange : TidyChange a c := .remove hmem hreleases hdisables
  refine ⟨c, hchange, ⟨.single hchange, ?_, ?_, ?_⟩, hremove⟩ <;>
    obtain ⟨set, counts, rfl⟩ := hreleases.eq <;>
    obtain ⟨thread, enabled, held, rfl⟩ := hdisables.eq
  · simp [hid, Agent.putNotifications, Agent.putBreakpoints, Agent.setVm, Agent.dropRequest,
      RequestTable.remove]
  · rfl
  · rfl

theorem evolves_remove {request registered : Request} (ho : Orderly a)
    (hmem : registered ∈ a.requests.requests) (hid : registered.id = request.id)
    (hregistration : registered.registration = request.registration) :
    ∃ b, Change a b ∧ b.requests.requests = (a.requests.remove request.id).requests ∧
      (Registration.remove request).perform a = (.ok (), b) := by
  obtain ⟨b, htidy, hremoved, hremove⟩ := perform_remove ho hmem hid hregistration
  refine ⟨b, htidy.change, ?_, hremove⟩
  simpa [RequestTable.remove] using hremoved.left

/-- Registered requests can be removed one after another. -/
theorem perform_removes {requests : List Request} (ho : Orderly a)
    (hregistered : ∀ request ∈ requests, ∃ registered ∈ a.requests.requests,
      registered.id = request.id ∧ registered.registration = request.registration)
    (hdistinct : requests.Pairwise (·.id ≠ ·.id)) :
    ∃ b, Removed requests a b ∧
      (requests.forM Registration.remove : Command Unit).perform a = (.ok (), b) := by
  induction requests generalizing a with
  | nil => exact ⟨a, .refl a, rfl⟩
  | cons request requests ih =>
      obtain ⟨registered, hmem, hid, hregistration⟩ := hregistered request List.mem_cons_self
      obtain ⟨b, -, hremoved, hremove⟩ := perform_remove ho hmem hid hregistration
      obtain ⟨hfirst, hrest⟩ := List.pairwise_cons.mp hdistinct
      have hlater : ∀ other ∈ requests, ∃ registered ∈ b.requests.requests,
          registered.id = other.id ∧ registered.registration = other.registration := by
        intro other hother
        obtain ⟨r, hr, hrid, hrregistration⟩ := hregistered other (List.mem_cons_of_mem _ hother)
        refine ⟨r, ?_, hrid, hrregistration⟩
        rw [hremoved.left]
        refine List.mem_filter.mpr ⟨hr, ?_⟩
        simpa [hrid] using (hfirst other hother).symm
      obtain ⟨c, hremoves, hperform⟩ := ih (ho.evolves hremoved.evolves) hlater hrest
      refine ⟨c, hremoved.trans hremoves, ?_⟩
      simpa [perform_bind, hremove] using hperform

/-- Clearing finds no request of the kind and changes nothing, or it removes the one it finds. -/
theorem clear_cases (ho : Orderly a) (kind : EventKind) (id : RequestId) :
    (∃ cause, (∀ request, a.requests.find? id = some request → request.kind ≠ kind) ∧
        (Registration.clear kind id).perform a = (.error (.refused cause), a)) ∨
      ∃ request b, a.requests.find? id = some request ∧ request.kind = kind ∧ TidyChange a b ∧
        Removed [request] a b ∧ (Registration.clear kind id).perform a = (.ok (), b) := by
  cases hfind : a.requests.find? id with
  | none =>
      refine .inl ⟨.notFound, fun other hother => ?_, ?_⟩
      · cases hother
      · simp [Registration.clear, perform_bind, hfind]
  | some request =>
      have hmem : request ∈ a.requests.requests := List.mem_of_find?_eq_some hfind
      obtain ⟨b, hchange, hremoved, hremove⟩ := perform_remove ho hmem rfl rfl
      by_cases hkind : request.kind = kind
      · refine .inr ⟨request, b, rfl, hkind, hchange, hremoved, ?_⟩
        simp [Registration.clear, perform_bind, hfind, hkind, hremove]
      · refine .inl ⟨.notFound, fun other hother => ?_, ?_⟩
        · cases hother
          exact hkind
        · simp [Registration.clear, perform_bind, hfind, hkind]

theorem progresses_clear (kind : EventKind) (id : RequestId) :
    Progresses (Registration.clear kind id) := by
  intro a ho
  rcases clear_cases ho kind id with
    ⟨_, -, hclear⟩ | ⟨request, b, -, -, hchange, -, hclear⟩
  · rw [hclear]
    exact .inl .refl
  · rw [hclear]
    exact .inl (.single hchange)

theorem progresses_clearEvent (kindCode : Nat) (id : RequestId) :
    Progresses (EventRequest.clear kindCode id) :=
  progresses_bind (looks_ofExcept _) fun kind => progresses_clear kind id

/-- All breakpoints can be cleared. -/
theorem perform_clearBreakpoints (ho : Orderly a) :
    ∃ b, Removed (a.requests.ofKind .breakpoint) a b ∧
      Registration.clearBreakpoints.perform a = (.ok (), b) := by
  have hregistered : ∀ request ∈ a.requests.ofKind .breakpoint, ∃ registered ∈ a.requests.requests,
      registered.id = request.id ∧ registered.registration = request.registration :=
    fun request hmem => ⟨request, (List.mem_filter.mp hmem).1, rfl, rfl⟩
  have hdistinct := (ho.sorted.filter fun r => r.kind = .breakpoint).imp Int.ne_of_lt
  obtain ⟨b, hremoved, hperform⟩ := perform_removes ho hregistered hdistinct
  refine ⟨b, hremoved, ?_⟩
  simpa [Registration.clearBreakpoints, perform_bind] using hperform

theorem progresses_clearBreakpoints : Progresses Registration.clearBreakpoints := by
  intro a ho
  obtain ⟨b, hremoved, hperform⟩ := perform_clearBreakpoints ho
  rw [hperform]
  exact .inl hremoved.evolves

theorem Command.Deed.progresses {x : Command Reply} (h : Deed may x) : Progresses x := by
  cases h with
  | looks hx => exact hx.any.progresses
  | dispose requests => exact progresses_done (progresses_of_changes (makes_disposeObjects requests))
  | set kindCode policy modifiers =>
      exact progresses_map _ (progresses_set kindCode policy modifiers)
  | clear kindCode id => exact progresses_done (progresses_clearEvent kindCode id)
  | clearBreakpoints => exact progresses_done progresses_clearBreakpoints

end DebugAgent
