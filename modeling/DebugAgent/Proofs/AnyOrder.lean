import DebugAgent.Proofs.CallbacksInStep
import DebugAgent.Proofs.ClassNames
import DebugAgent.Proofs.Countdown

/-!
# Modifiers in any order

The client may list the modifiers of a request in any order.  Whether the request is set, under which
identifier and what the machine is asked for does not depend on the order, and neither does anything
that is told, sent or registered afterwards, whatever happens.
-/

namespace DebugAgent

open DebugAgent.Action Command

variable {p p' : Pairing} {a b : Agent} {h k : Handle}

/-! ### What there is to be seen -/

/-- The callback with other references in the place of those that it carries. -/
def Callback.withRefs (f : Handle → Handle) (c : Callback Handle) : Callback Handle :=
  c.withObjects ((c.thread?.map f).getD .null) ((c.other?.map f).getD .null)

/-- The operation with other references in the place of those that are brought along. -/
def Op.withRefs (f : Handle → Handle) : Op → Op
  | .callback caller c => .callback caller (c.withRefs f)
  | .trackNew caller h => .trackNew caller (f h)
  | .trackObject caller h declared => .trackObject caller (f h) declared
  | .trackClass caller h => .trackClass caller (f h)
  | op => op

/-- The object that native code outside the agent takes a reference to. -/
def Op.takes? : Op → Option HeapId
  | .setup (.takeRef object) => some object
  | _ => none

theorem Op.eq_of_takes? {op : Op} {object : HeapId} (h : op.takes? = some object) :
    op = .setup (.takeRef object) := by
  cases op with
  | setup step =>
      cases step with
      | takeRef => exact congrArg (fun id => Op.setup (.takeRef id)) (Option.some.inj h)
      | _ => cases h
  | _ => cases h

/-- What an operation comes to for the one that asks for it. -/
inductive Outcome where
  | nothing
  | reply (answer : Except ProtocolError Reply)
  | done (answer : Except ProtocolError Unit)
  | sets (sets : List EventSet)
  | called (delivered : Bool)
  | identifier (answer : Except ProtocolError ObjectId)
  | object (answer : Except ProtocolError TaggedObjectId)
  | type (answer : Except ProtocolError TaggedTypeId)
  deriving DecidableEq, Repr

/-- The registered requests, and the breakpoints and notifications that the machine has been asked
for. -/
structure Registered where
  requests : List (RequestId × EventKind × SuspendPolicy × Registration)
  breakpoints : List (MethodId × CodeIndex)
  notifications : List (CallbackKind × Option HeapId)
  deriving DecidableEq, Repr

/-- What there is to be seen of an operation: what it comes to, the event set that it causes, and
what is registered after it, so also which requests have expired. -/
structure Report where
  outcome : Outcome
  caused : Option EventSet
  registered : Registered
  deriving DecidableEq, Repr

/-- Native code outside the agent names the references that it brings along: those up to a number by
their numbers, and those that it has taken since by the numbers that follow, in order.  The numbers
that the machine gives to new references need not be known for that. -/
structure Outside where
  limit : Nat
  taken : List Handle := []

namespace Outside

/-- The reference that is named; null if there is none. -/
def ref (o : Outside) (h : Handle) : Handle :=
  if h.raw ≤ o.limit then h else o.taken.getD (h.raw - o.limit - 1) .null

/-- Native code may take a reference in an operation. -/
def after (o : Outside) (a : Agent) (op : Op) : Outside :=
  match op.takes? with
  | some object => { o with taken := o.taken ++ [(a.vm.newLocal object).1] }
  | none => o

end Outside

namespace Agent

/-- What is registered with the agent and the machine. -/
def registered (a : Agent) : Registered where
  requests := a.requests.requests.map fun r => (r.id, r.kind, r.policy, r.registration)
  breakpoints := a.vm.breakpoints
  notifications := a.vm.notifications

/-- What the next operation comes to. -/
def outcome (a : Agent) : Op → Outcome
  | .setup _ | .closeSession | .callback _ _ => .nothing
  | .command caller command => .reply (Agent.serve caller command a).1
  | .attach caller canDeliver => .done (Agent.attach caller canDeliver a).1
  | .drain => .sets a.drain.1
  | .deliver caller c => .called (Agent.deliver caller c a).1
  | .trackNew caller h => .identifier (Command.answer caller (Tracking.trackNew h) a).1
  | .trackObject caller h declared =>
      .object (Command.answer caller (Tracking.trackObject h declared) a).1
  | .trackClass caller h => .type (Command.answer caller (Tracking.trackClass h) a).1
  | .release caller id => .done (Command.answer caller (Tracking.release id) a).1
  | .dispose caller id count => .done (Command.answer caller (Tracking.dispose id count) a).1

/-- What there is to be seen of a run, operation by operation. -/
def reports (a : Agent) (o : Outside) : List Op → List Report
  | [] => []
  | op :: ops =>
      let named := op.withRefs o.ref
      ⟨a.outcome named, a.sends? named, (a.apply named).registered⟩ ::
        (a.apply named).reports (o.after a op) ops

end Agent

/-! ### One operation -/

namespace Agent.Paired

theorem registered (hp : a.Paired p b) : a.registered = b.registered := by
  have hrequests : b.requests.requests.map (fun r => (r.id, r.kind, r.policy, r.registration)) =
      a.requests.requests.map fun r => (r.id, r.kind, r.policy, r.registration) :=
    map_eq_of_twins hp.requests.requests fun hr => by
      rw [hr.id, hr.kind, hr.policy, hr.registration]
  have hbreakpoints : b.vm.breakpoints = a.vm.breakpoints := hp.vm.same fun _ _ _ => rfl
  have hnotifications : b.vm.notifications = a.vm.notifications := hp.vm.same fun _ _ _ => rfl
  rw [Agent.registered, Agent.registered, hrequests, hbreakpoints, hnotifications]

end Agent.Paired

/-- What an operation comes to is the same for two agents, and leaves them in step under a pairing
that goes on. -/
structure AppliesAlike (p : Pairing) (a b : Agent) (op op' : Op) : Prop where
  outcome : a.outcome op = b.outcome op'
  sends : a.sends? op = b.sends? op'
  paired : ∃ p' : Pairing, p'.Continues p a.vm b.vm ∧ (a.apply op).Paired p' (b.apply op')

/-- Most operations keep the pairing as it is. -/
theorem AppliesAlike.of_paired {op op' : Op} (houtcome : a.outcome op = b.outcome op')
    (hsends : a.sends? op = b.sends? op') (hp : (a.apply op).Paired p (b.apply op')) :
    AppliesAlike p a b op op' :=
  ⟨houtcome, hsends, p, .refl p _ _, hp⟩

namespace Agent.Paired

theorem serve (hp : a.Paired p b) (caller : NativeThread) (command : ClientCommand) :
    (Agent.serve caller command a).1 = (Agent.serve caller command b).1 ∧
      (Agent.serve caller command a).2.Paired p (Agent.serve caller command b).2 := by
  by_cases hcommand : command = .capabilities
  · subst hcommand
    refine ⟨?_, hp⟩
    simp only [Agent.serve, hp.config]
  · rw [Agent.serve_eq hcommand]
    obtain ⟨hanswer, hpaired⟩ := hp.answer (lockstep_ofClient caller command) caller
    exact ⟨hanswer.eq, hpaired⟩

theorem attach (hp : a.Paired p b) (caller : NativeThread) (canDeliver : Bool) :
    (Agent.attach caller canDeliver a).1 = (Agent.attach caller canDeliver b).1 ∧
      (Agent.attach caller canDeliver a).2.Paired p (Agent.attach caller canDeliver b).2 := by
  have hopens : Lockstep (Agent.Paired p) Eq (opening canDeliver) (opening canDeliver) :=
    lockstep_bind_eq (lockstep_look fun hp => by rw [isAttached, isAttached, hp.session])
      fun _ => lockstep_bind_eq (lockstep_guard _ _) fun _ =>
        lockstep_bind_eq (lockstep_guard _ _) fun _ =>
          lockstep_bind_eq (Registration.lockstep_enable _) fun _ =>
            lockstep_change fun hp => hp.setSession rfl
  obtain ⟨hanswer, hpaired⟩ := hp.answer hopens caller
  exact ⟨hanswer.eq, hpaired⟩

theorem drain (hp : a.Paired p b) :
    a.drain.1 = b.drain.1 ∧ a.drain.2.Paired p b.drain.2 := by
  rw [Agent.drain, Agent.drain, hp.session]
  split
  · exact ⟨rfl, hp⟩
  · exact ⟨rfl, hp.setSession rfl⟩

/-- Agents in step apply an operation alike, with references that stand for each other. -/
theorem applies (hp : a.Paired p b) (ha : Sturdy a) (hb : Sturdy b) {f g : Handle → Handle}
    (hfg : ∀ h, p.stands (f h) (g h)) (op : Op) :
    AppliesAlike p a b (op.withRefs f) (op.withRefs g) := by
  cases op with
  | setup step => exact .of_paired rfl rfl (hp.setVm (hp.vm.setup step))
  | command caller command =>
      obtain ⟨hanswer, hserved⟩ := hp.serve caller command
      exact .of_paired (congrArg Outcome.reply hanswer) rfl hserved
  | attach caller canDeliver =>
      obtain ⟨hanswer, hattached⟩ := hp.attach caller canDeliver
      exact .of_paired (congrArg Outcome.done hanswer) rfl hattached
  | closeSession =>
      exact .of_paired rfl rfl (hp.setSession (by rw [hp.session]))
  | drain =>
      obtain ⟨hsets, hdrained⟩ := hp.drain
      exact .of_paired (congrArg Outcome.sets hsets) rfl hdrained
  | deliver caller c =>
      obtain ⟨⟨hcalled, hpaired⟩, hsends⟩ := hp.deliver ha hb caller c
      exact ⟨congrArg Outcome.called hcalled, hsends, hpaired⟩
  | callback caller c =>
      have hstands : ∀ object : Option Handle,
          p.stands ((object.map f).getD .null) ((object.map g).getD .null) := by
        intro object
        cases object with
        | none => exact p.null
        | some h => exact hfg h
      obtain ⟨hfired, hpaired⟩ := hp.onCallback ha hb
        (.intro c (hstands c.thread?) (hstands c.other?)) caller
      exact ⟨rfl, congrArg (Option.map Fired.events) hfired, hpaired⟩
  | trackNew caller h =>
      obtain ⟨hanswer, hpaired⟩ := hp.answer (Tracking.lockstep_trackNew (hfg h)) caller
      exact .of_paired (congrArg Outcome.identifier hanswer.eq) rfl hpaired
  | trackObject caller h declared =>
      obtain ⟨hanswer, hpaired⟩ :=
        hp.answer (Tracking.lockstep_trackObject (hfg h) declared) caller
      exact .of_paired (congrArg Outcome.object hanswer.eq) rfl hpaired
  | trackClass caller h =>
      obtain ⟨hanswer, hpaired⟩ := hp.answer (Tracking.lockstep_trackClass (hfg h)) caller
      exact .of_paired (congrArg Outcome.type hanswer.eq) rfl hpaired
  | release caller id =>
      obtain ⟨hanswer, hpaired⟩ := hp.answer (Tracking.lockstep_release id) caller
      exact .of_paired (congrArg Outcome.done hanswer.eq) rfl hpaired
  | dispose caller id count =>
      obtain ⟨hanswer, hpaired⟩ := hp.answer (Tracking.lockstep_dispose id count) caller
      exact .of_paired (congrArg Outcome.done hanswer.eq) rfl hpaired

end Agent.Paired

/-! ### All that follows -/

/-- Two agents are in step, and native code outside has taken references that stand for each
other. -/
structure InStep (a b : Agent) (o o' : Outside) : Prop where
  sturdy : Sturdy a
  sturdy' : Sturdy b
  limit : o'.limit = o.limit
  paired : ∃ p : Pairing, p.limit = o.limit ∧ a.Paired p b ∧
    List.Forall₂ (Vm.Known p a.vm b.vm) o.taken o'.taken

namespace InStep

variable {o o' : Outside}

theorem stands_getD {vm vm' : Vm} {hs ks : List Handle}
    (hks : List.Forall₂ (Vm.Known p vm vm') hs ks) (n : Nat) :
    p.stands (hs.getD n .null) (ks.getD n .null) := by
  induction hks generalizing n with
  | nil => exact p.null
  | cons hfirst _ ih =>
      cases n with
      | zero => exact hfirst.stands
      | succ n => exact ih n

/-- What is named stands for what is named the same. -/
theorem stands_ref {vm vm' : Vm} (hlimit : p.limit = o.limit) (hsame : o'.limit = o.limit)
    (htaken : List.Forall₂ (Vm.Known p vm vm') o.taken o'.taken) (h : Handle) :
    p.stands (o.ref h) (o'.ref h) := by
  rw [Outside.ref, Outside.ref, hsame]
  split
  · rename_i hle
    exact p.old (hlimit ▸ hle)
  · exact stands_getD htaken _

theorem apply (h : InStep a b o o') (op : Op) :
    a.outcome (op.withRefs o.ref) = b.outcome (op.withRefs o'.ref) ∧
      a.sends? (op.withRefs o.ref) = b.sends? (op.withRefs o'.ref) ∧
      InStep (a.apply (op.withRefs o.ref)) (b.apply (op.withRefs o'.ref)) (o.after a op)
        (o'.after b op) := by
  obtain ⟨p, hlimit, hp, htaken⟩ := h.paired
  obtain ⟨houtcome, hsends, p', hcontinues, hpaired⟩ :=
    hp.applies h.sturdy h.sturdy' (stands_ref hlimit h.limit htaken) op
  refine ⟨houtcome, hsends, ?_⟩
  have hages := h.sturdy.ages_apply (op.withRefs o.ref)
  have hages' := h.sturdy'.ages_apply (op.withRefs o'.ref)
  cases htakes : op.takes? with
  | none =>
      rw [Outside.after, Outside.after, htakes]
      refine ⟨h.sturdy.apply _, h.sturdy'.apply _, h.limit, p', hcontinues.limit.trans hlimit,
        hpaired, htaken.imp fun _ _ hk => ?_⟩
      have hlater := hk.ages hages hages'
      exact ⟨hcontinues.stands hk, hlater.le, hlater.le'⟩
  | some object =>
      rw [Outside.after, Outside.after, htakes]
      rw [Op.eq_of_takes? htakes] at hages hages' ⊢
      obtain ⟨-, hnear⟩ := hp.vm.newRef .localRef object
      refine ⟨h.sturdy.apply _, h.sturdy'.apply _, h.limit, p, hlimit, hp.setVm hnear, ?_⟩
      exact List.rel_append (htaken.imp fun _ _ hk => hk.ages hages hages')
        (.cons (hp.vm.known_newRef .localRef object) .nil)

theorem reports_eq (h : InStep a b o o') (ops : List Op) : a.reports o ops = b.reports o' ops := by
  induction ops generalizing a b o o' with
  | nil => rfl
  | cons op ops ih =>
      obtain ⟨houtcome, hsends, hlater⟩ := h.apply op
      obtain ⟨_, -, hp, -⟩ := hlater.paired
      rw [Agent.reports, Agent.reports, houtcome, hsends, hp.registered, ih hlater]

end InStep

/-! ### Setting a request -/

/-- The pairing of a machine with itself. -/
def Pairing.same (limit : Nat) : Pairing where
  stands := Eq
  limit := limit
  old _ := rfl
  unique hk hk' := hk.symm.trans hk'
  unique' hk hk' := hk.trans hk'.symm

theorem Agent.Paired.same {limit : Nat} (hlimit : limit ≤ a.vm.lastRef) :
    a.Paired (Pairing.same limit) a where
  vm := ⟨⟨_, _, rfl⟩, fun hk => by rw [hk], fun _ => rfl, hlimit, hlimit⟩
  config := rfl
  tracker := ⟨rfl, ⟨fun id => by
    cases a.tracker.entries.get? id with
    | none => exact .none
    | some entry => exact .some ⟨rfl, rfl⟩⟩⟩
  requests := ⟨rfl, List.forall₂_same.mpr fun r _ => .refl r, rfl, ⟨fun key => by
    cases a.requests.notifications.get? key with
    | none => exact .none
    | some held =>
        refine .some ⟨rfl, ?_⟩
        cases held.thread with
        | none => exact .none
        | some global => exact .some rfl⟩⟩
  session := rfl

theorem mapM_cons_eq_ok {ε α β : Type} {f : α → Except ε β} {x : α} {xs : List α} {rs : List β} :
    (x :: xs).mapM f = .ok rs ↔ ∃ r rest, f x = .ok r ∧ xs.mapM f = .ok rest ∧ rs = r :: rest := by
  rw [List.mapM_cons]
  cases f x with
  | error e => simp [bind, Except.bind]
  | ok r => cases xs.mapM f <;> simp [bind, Except.bind, pure, Except.pure, eq_comm]

/-- In another order the same results are listed in that order. -/
theorem mapM_perm {ε α β : Type} {f : α → Except ε β} {xs ys : List α} (hperm : xs.Perm ys)
    {rs : List β} (hrs : xs.mapM f = .ok rs) : ∃ rs', ys.mapM f = .ok rs' ∧ rs.Perm rs' := by
  induction hperm generalizing rs with
  | nil => exact ⟨rs, hrs, .refl rs⟩
  | cons x _ ih =>
      obtain ⟨r, rest, hr, hrest, rfl⟩ := mapM_cons_eq_ok.mp hrs
      obtain ⟨rest', hrest', hperm⟩ := ih hrest
      exact ⟨r :: rest', mapM_cons_eq_ok.mpr ⟨r, rest', hr, hrest', rfl⟩, hperm.cons r⟩
  | swap x y xs =>
      obtain ⟨r, later, hr, hlater, rfl⟩ := mapM_cons_eq_ok.mp hrs
      obtain ⟨s, rest, hs, hrest, rfl⟩ := mapM_cons_eq_ok.mp hlater
      have hswapped := mapM_cons_eq_ok.mpr ⟨r, rest, hr, hrest, rfl⟩
      exact ⟨s :: r :: rest, mapM_cons_eq_ok.mpr ⟨s, _, hs, hswapped, rfl⟩, .swap s r rest⟩
  | trans _ _ ih ih' =>
      obtain ⟨rs', hrs', hperm⟩ := ih hrs
      obtain ⟨rs'', hrs'', hperm'⟩ := ih' hrs'
      exact ⟨rs'', hrs'', hperm.trans hperm'⟩

/-- The order of the arguments may matter to the cause of a failure, but to nothing else. -/
theorem mapM_ok_or_error {ε α β : Type} (f : α → Except ε β) {xs ys : List α}
    (hperm : xs.Perm ys) :
    (∃ rs rs', xs.mapM f = .ok rs ∧ ys.mapM f = .ok rs' ∧ rs.Perm rs') ∨
      ∃ e e', xs.mapM f = .error e ∧ ys.mapM f = .error e' := by
  cases hxs : xs.mapM f with
  | ok rs =>
      obtain ⟨rs', hys, hrs⟩ := mapM_perm hperm hxs
      exact .inl ⟨rs, rs', rfl, hys, hrs⟩
  | error e =>
      cases hys : ys.mapM f with
      | ok rs' =>
          obtain ⟨rs, hok, -⟩ := mapM_perm hperm.symm hys
          rw [hxs] at hok
          cases hok
      | error e' => exact .inr ⟨e, e', rfl, rfl⟩

/-- The order makes a difference only from the second element on. -/
theorem eq_or_longer_of_perm {α : Type} {xs ys : List α} (hperm : xs.Perm ys) :
    xs = ys ∨ ∃ x x' rest y y' rest', xs = x :: x' :: rest ∧ ys = y :: y' :: rest' := by
  cases xs with
  | nil => exact .inl hperm.nil_eq
  | cons x xs =>
      cases xs with
      | nil => exact .inl (List.singleton_perm.mp hperm)
      | cons x' rest =>
          cases ys with
          | nil => exact .inl hperm.eq_nil
          | cons y ys =>
              cases ys with
              | nil => exact .inl (List.perm_singleton.mp hperm)
              | cons y' rest' => exact .inr ⟨x, x', rest, y, y', rest', rfl, rfl⟩

namespace Registration

/-- What modifiers are made into does not depend on how many references have been used up, and making
it uses up references at most. -/
theorem perform_filters (ha : Sturdy a) (kind : EventKind) (modifiers : List EventModifier)
    (used : Nat) : ∃ more, (modifiers.mapM (filterOf kind)).perform (a.spend used) =
      (modifiers.mapM fun modifier => ((filterOf kind modifier).perform a).1, a.spend more) := by
  induction modifiers generalizing used with
  | nil => exact ⟨used, rfl⟩
  | cons modifier modifiers ih =>
      -- the agent is in step with itself, whatever it has used up
      have hspent := (Agent.Paired.same (Nat.le_refl _)).spend ha ha 0 used
      have hsame := ((lockstep_filterOf kind modifier).alike hspent).results_eq
      obtain ⟨more, hspends⟩ :=
        spends_filterOf kind modifier (a.spend used) (Vm.bounded_spend ha.refs used)
      rw [Agent.spend_spend] at hspends
      rw [Agent.spend_zero] at hsame
      have hfirst : (filterOf kind modifier).perform (a.spend used) =
          (((filterOf kind modifier).perform a).1, a.spend (used + more)) :=
        Prod.ext hsame.symm hspends
      obtain ⟨last, hrest⟩ := ih (used + more)
      rw [List.mapM_cons, List.mapM_cons, perform_bind, hfirst]
      cases ((filterOf kind modifier).perform a).1 with
      | error stop => exact ⟨used + more, rfl⟩
      | ok filter =>
          refine ⟨last, ?_⟩
          dsimp only
          rw [perform_bind, hrest]
          cases modifiers.mapM fun modifier => ((filterOf kind modifier).perform a).1 <;> rfl

/-- The order of its filters does not matter to what a request needs. -/
theorem needed_perm (kind : EventKind) {filters filters' : List Filter}
    (hperm : filters.Perm filters') : needed kind filters = needed kind filters' := by
  cases kind with
  | breakpoint =>
      simp only [needed]
      rcases eq_or_longer_of_perm (hperm.filterMap positionOf?) with
        hsame | ⟨_, _, _, _, _, _, hlonger, hlonger'⟩
      · rw [hsame]
      · rw [hlonger, hlonger']
  | singleStep =>
      simp only [needed]
      rcases eq_or_longer_of_perm (hperm.filterMap stepThreadOf?) with
        hsame | ⟨_, _, _, _, _, _, hlonger, hlonger'⟩
      · rw [hsame]
      · rw [hlonger, hlonger']
  | _ => rfl

/-- A request is registered or not, whatever the order of its modifiers, and under the same
identifier. -/
theorem register_perm (ha : Sturdy a) {limit : Nat} (hlimit : limit ≤ a.vm.lastRef)
    (kind : EventKind) (policy : SuspendPolicy) {modifiers modifiers' : List EventModifier}
    (hperm : modifiers.Perm modifiers') :
    let first := (register kind policy modifiers).perform a
    let second := (register kind policy modifiers').perform a
    (∀ id, first.1 = .ok id ↔ second.1 = .ok id) ∧
      ∃ p : Pairing, p.limit = limit ∧ first.2.Paired p second.2 := by
  dsimp only
  have hstart := Agent.Paired.same hlimit
  rw [register, register, perform_bind, perform_bind]
  cases kind.isSupported with
  | false => exact ⟨fun id => .rfl, _, rfl, hstart⟩
  | true =>
      obtain ⟨used, hfilters⟩ := perform_filters ha kind modifiers 0
      obtain ⟨used', hfilters'⟩ := perform_filters ha kind modifiers' 0
      have hspent := hstart.spend ha ha used used'
      rw [Agent.spend_zero] at hfilters hfilters'
      dsimp only [perform_guard_true]
      rw [perform_bind, perform_bind, hfilters, hfilters']
      rcases mapM_ok_or_error (fun modifier => ((filterOf kind modifier).perform a).1) hperm with
        ⟨filters, filters', hmade, hmade', hsame⟩ | ⟨stop, stop', hstop, hstop'⟩
      · -- from here on both do the same, but that one has used up more than the other
        rw [hmade, hmade']
        dsimp only
        rw [needed_perm kind hsame]
        have halike := (lockstep_bind_eq (lockstep_ofExcept (needed kind filters'))
          fun registration => lockstep_bind_eq (lockstep_acquire registration) fun _ =>
            lockstep_add kind policy hsame registration).alike hspent
        refine ⟨fun id => ?_, _, rfl, halike.states⟩
        exact ⟨halike.results_eq.symm.trans, halike.results_eq.trans⟩
      · rw [hstop, hstop']
        exact ⟨fun id => by simp, _, rfl, hspent⟩

end Registration

/-- Where one action succeeds the other does, with the same result, and so it is when they are part of
more. -/
theorem ok_iff_of_ok_iff {ε δ α β : Type} {x y : Except ε α} (h : ∀ r, x = .ok r ↔ y = .ok r)
    (f : α → β) (g : ε → δ) (r : β) :
    (x.map f).mapError g = .ok r ↔ (y.map f).mapError g = .ok r := by
  cases x with
  | ok result => rw [(h result).mp rfl]
  | error cause =>
      cases y with
      | ok result => cases (h result).mpr rfl
      | error cause' => simp [Except.map, Except.mapError]

/-- The client sets a request with its modifiers in one order or in another. -/
theorem Agent.serve_setEvent_perm (ha : Sturdy a) (caller : NativeThread) (kindCode : Nat)
    (policy : SuspendPolicy) {modifiers modifiers' : List EventModifier}
    (hperm : modifiers.Perm modifiers') :
    let first := Agent.serve caller (.setEvent kindCode policy modifiers) a
    let second := Agent.serve caller (.setEvent kindCode policy modifiers') a
    (∀ reply, first.1 = .ok reply ↔ second.1 = .ok reply) ∧
      ∃ p : Pairing, p.limit = a.vm.lastRef ∧ first.2.Paired p second.2 := by
  dsimp only
  rw [Agent.serve_eq (by simp), Agent.serve_eq (by simp)]
  cases hfails : a.vm.attachFails with
  | true =>
      rw [answer_of_not_attaching hfails, answer_of_not_attaching hfails]
      exact ⟨fun _ => .rfl, _, rfl, .same (Nat.le_refl _)⟩
  | false =>
      let near := a.setVm (a.vm.attach caller).2
      have hlooked := ha.looks (.attach trivial caller)
      rw [perform_attach hfails] at hlooked
      obtain ⟨hnear, hages⟩ := hlooked
      have hset : ∀ modifiers, (ofClient caller (.setEvent kindCode policy modifiers)).perform near =
          (Reply.request <$> EventRequest.set kindCode policy modifiers).perform near := fun _ => rfl
      rw [answer_of_attaching hfails, answer_of_attaching hfails]
      dsimp only
      rw [hset, hset, perform_map, perform_map]
      dsimp only
      rw [EventRequest.set, EventRequest.set, perform_bind, perform_bind, Action.ofExcept,
        perform_inspect]
      cases EventKind.ofCode kindCode with
      | error cause => exact ⟨fun _ => .rfl, _, rfl, .same hages.lastRef_le⟩
      | ok kind =>
          obtain ⟨hsame, hpaired⟩ :=
            Registration.register_perm hnear hages.lastRef_le kind policy hperm
          exact ⟨ok_iff_of_ok_iff hsame _ _, hpaired⟩

/-- The client may list the modifiers of a request in any order.  A request with the one list is set
where one with the other is, under the same identifier, and the machine is asked for the same.  From
then on the client is told the same, callbacks cause the same event sets, and the same requests are
registered until they expire, whatever happens. -/
theorem modifiers_in_any_order (past : Past) (caller : NativeThread) (kindCode : Nat)
    (policy : SuspendPolicy) {modifiers modifiers' : List EventModifier}
    (hperm : modifiers.Perm modifiers') :
    let first := Agent.serve caller (.setEvent kindCode policy modifiers) past.agent
    let second := Agent.serve caller (.setEvent kindCode policy modifiers') past.agent
    let outside : Outside := { limit := past.agent.vm.lastRef }
    (∀ reply, first.1 = .ok reply ↔ second.1 = .ok reply) ∧
      first.2.registered = second.2.registered ∧
      ∀ ops, first.2.reports outside ops = second.2.reports outside ops := by
  intro first second outside
  have ha := past.sturdy
  obtain ⟨hsame, p, hlimit, hp⟩ := Agent.serve_setEvent_perm ha caller kindCode policy hperm
  have hset : ∀ modifiers,
      Sturdy (Agent.serve caller (.setEvent kindCode policy modifiers) past.agent).2 :=
    fun modifiers => ha.apply (.command caller (.setEvent kindCode policy modifiers))
  have hstep : InStep first.2 second.2 outside outside :=
    ⟨hset modifiers, hset modifiers', rfl, p, hlimit, hp, .nil⟩
  exact ⟨hsame, hp.registered, hstep.reports_eq⟩

/-- A count that is listed last counts what one that is listed first counts.  The breakpoint is hit
first by a thread that the request is not for, and after the next hit the request is gone. -/
theorem count_listed_last :
    let modifiers : List EventModifier :=
      [.count 1, .threadOnly 1, .locationOnly ⟨.classType, 4, 0x1000, 4⟩]
    let second :=
      Agent.serve (.client 0) (.setEvent 2 .none modifiers.reverse) Past.twoThreads.agent
    let hit (thread : HeapId) : Op := .deliver (.client 0) (.breakpoint thread 0x1000 4)
    let reports := second.2.reports { limit := Past.twoThreads.agent.vm.lastRef }
      [hit 11, hit 10, hit 10]
    modifiers.Perm modifiers.reverse ∧ second.1 = .ok (.request 1) ∧
      reports.map Report.outcome = [.called true, .called true, .called false] ∧
      reports.map Report.caused = [none, some ⟨.none,
        [⟨.breakpoint, 1, .breakpoint 1 ⟨.classType, 4, 0x1000, 4⟩⟩]⟩, none] ∧
      reports.map (fun report => report.registered.requests.map Prod.fst) = [[1], [], []] := by
  intro modifiers second hit reports
  have hperm : modifiers.Perm modifiers.reverse := (List.reverse_perm modifiers).symm
  obtain ⟨hsame, -, hreports⟩ :=
    modifiers_in_any_order Past.twoThreads (.client 0) 2 .none hperm
  have hfirst : reports = (Agent.serve (.client 0) (.setEvent 2 .none modifiers)
      Past.twoThreads.agent).2.reports { limit := Past.twoThreads.agent.vm.lastRef }
        [hit 11, hit 10, hit 10] := (hreports _).symm
  rw [hfirst]
  exact ⟨hperm, (hsame _).mp (by decide +kernel), by decide +kernel, by decide +kernel,
    by decide +kernel⟩

end DebugAgent
