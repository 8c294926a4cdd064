import DebugAgent.Proofs.CountsLast

/-!
# Commands that fail halfway

A command that answers with a list looks at its members one after another and counts the identifiers
of each as it gets there.  If it fails at a later one, what was counted for the members before stays
counted, although the client is told of none of them: the table of identifiers is that of the same
command when it is asked for these members only.  Other commands that fail have counted nothing, and
neither has the opening of the session.
-/

namespace DebugAgent

open DebugAgent.Action Command Tracking
open Relation (ReflTransGen)

variable {may : Control → Prop} {α β γ : Type} {a b : Agent} {h : Handle}

/-! ### Global references and identifiers -/

theorem globalCount_enrol (hb : a.vm.RefsBounded) (object : HeapId) :
    (a.enrol object).vm.globalCount = a.vm.globalCount + 1 := by
  let tagged := a.vm.setTagAt object a.tracker.nextId
  have hbounded : tagged.RefsBounded := hb
  exact Vm.refCount_newRef hbounded .globalRef object

/-- Looking at the machine makes one global reference with each new identifier, and no other. -/
theorem globalCount_of_inspections (ho : Orderly a) (hpos : a.vm.RefsPositive)
    (h : ReflTransGen (Inspection may) a b) :
    b.vm.globalCount + a.tracker.nextId = a.vm.globalCount + b.tracker.nextId := by
  induction h with
  | refl => rfl
  | @tail mid last hinspections hlast ih =>
      have hevolves := evolves_of_inspections ho hinspections
      have hb := (ho.evolves hevolves).refs
      rcases hlast.conserves hb with ⟨hstep, hsame⟩ | ⟨object, rfl⟩
      · have hpositive := (ages_of_evolves hevolves).positive hpos
        rw [(hstep.sameGlobals hpositive).globalCount, hsame, ih]
      · rw [globalCount_enrol hb object, Nat.add_right_comm, ih]
        rfl

/-! ### Commands that break off -/

/-- Where the command fails, the identifiers are those that it found, or those that its first `n`
parts leave behind, where `n` is small enough. -/
def BreaksOff (small : Nat → Prop) (x : Command α) (first : Nat → Command α) : Prop :=
  ∀ a stop b, x.perform a = (.error stop, b) → b.tracker = a.tracker ∨
    ∃ n, small n ∧ ∃ r c, (first n).perform a = (.ok r, c) ∧ c.tracker = b.tracker

/-- However many parts it takes. -/
abbrev Small.Any : Nat → Prop := fun _ => True

namespace BreaksOff

variable {small smaller : Nat → Prop} {x : Command α} {first : Nat → Command α}

theorem countsLast (hx : CountsLast x) : BreaksOff small x first :=
  fun a stop b hfails => .inl (hx a stop b hfails)

/-- A list of commands breaks off at one of them. -/
theorem mapM {f : α → Command β} (hf : ∀ r, CountsLast (f r)) (xs : List α) :
    BreaksOff (· < xs.length) (xs.mapM f) fun n => (xs.take n).mapM f := by
  intro a stop b hfails
  obtain ⟨n, hn, rs, near, hbefore, hlast⟩ := perform_mapM_error hfails
  exact .inr ⟨n, hn, rs, near, hbefore, (hf _ near stop b hlast).symm⟩

/-- The parts may be described in another way. -/
theorem congr {other : Nat → Command α} (hx : BreaksOff smaller x other)
    (hsame : ∀ n, smaller n → small n ∧ first n = other n) : BreaksOff small x first := by
  intro a stop b hfails
  rcases hx a stop b hfails with hkept | ⟨n, hn, r, c, hperform, htracker⟩
  · exact .inl hkept
  · obtain ⟨hsmall, heq⟩ := hsame n hn
    exact .inr ⟨n, hsmall, r, c, heq ▸ hperform, htracker⟩

theorem any (hx : BreaksOff small x first) : BreaksOff Small.Any x first :=
  hx.congr fun _ _ => ⟨trivial, rfl⟩

theorem after {y : Command γ} {f : γ → Command α} {first : γ → Nat → Command α} (hy : KeepsIds y)
    (hf : ∀ r, BreaksOff small (f r) (first r)) :
    BreaksOff small (y >>= f) fun n => y >>= fun r => first r n := by
  intro a stop b hfails
  have htracker := hy a
  rcases perform_bind_error hfails with hfirst | ⟨r, near, hfirst, hlast⟩
  · rw [hfirst] at htracker
    exact .inl htracker
  · rw [hfirst] at htracker
    rcases hf r near stop b hlast with hkept | ⟨n, hn, s, c, hperform, hsame⟩
    · exact .inl (hkept.trans htracker)
    · exact .inr ⟨n, hn, s, c, (perform_bind_of_ok hfirst _).trans hperform, hsame⟩

/-- What is asked first depends on the parts that are wanted. -/
theorem inspect {δ : Type} {q : Agent → Except ProtocolError γ}
    {p : Nat → Agent → Except ProtocolError δ} {f : γ → Command α} {g : Nat → δ → Command α}
    (hf : ∀ a r, q a = .ok r → ∃ (smaller : Nat → Prop) (s : Nat → δ),
      (∀ n, smaller n → small n ∧ p n a = .ok (s n)) ∧
        BreaksOff smaller (f r) fun n => g n (s n)) :
    BreaksOff small (Action.inspect q >>= f) fun n => Action.inspect (p n) >>= g n := by
  intro a stop b hfails
  cases hq : q a with
  | error cause =>
      rw [perform_bind, perform_inspect, hq] at hfails
      cases hfails
      exact .inl rfl
  | ok r =>
      obtain ⟨smaller, s, hp, hparts⟩ := hf a r hq
      have hasked : (Action.inspect q : Command γ).perform a = (.ok r, a) := by simp [hq]
      rw [perform_bind_of_ok hasked] at hfails
      rcases hparts a stop b hfails with hkept | ⟨n, hn, t, c, hperform, hsame⟩
      · exact .inl hkept
      · obtain ⟨hsmall, hn⟩ := hp n hn
        have hasked : (Action.inspect (p n) : Command δ).perform a = (.ok (s n), a) := by simp [hn]
        exact .inr ⟨n, hsmall, t, c, (perform_bind_of_ok hasked _).trans hperform, hsame⟩

theorem ask {δ : Type} {q : Vm → Except JvmtiError γ} {p : Nat → Vm → Except JvmtiError δ}
    {f : γ → Command α} {g : Nat → δ → Command α}
    (hf : ∀ vm r, q vm = .ok r → ∃ (smaller : Nat → Prop) (s : Nat → δ),
      (∀ n, smaller n → small n ∧ p n vm = .ok (s n)) ∧
        BreaksOff smaller (f r) fun n => g n (s n)) :
    BreaksOff small (Command.ask q >>= f) fun n => Command.ask (p n) >>= g n := by
  refine .inspect fun a r hasked => ?_
  have hquery : q a.vm = .ok r := by
    generalize q a.vm = answer at hasked
    cases answer <;> cases hasked
    rfl
  obtain ⟨smaller, s, hp, hparts⟩ := hf a.vm r hquery
  refine ⟨smaller, s, fun n hn => ⟨(hp n hn).1, ?_⟩, hparts⟩
  rw [(hp n hn).2]
  rfl

theorem guard {p : Bool} {q : Nat → Bool} {cause : ProtocolError}
    (hx : p = true → (∀ n, small n → q n = true) ∧ BreaksOff small x first) :
    BreaksOff small (Action.guard p cause >>= fun _ => x)
      fun n => Action.guard (q n) cause >>= fun _ => first n := by
  intro a stop b hfails
  cases p with
  | false =>
      rw [perform_bind, perform_guard_false] at hfails
      cases hfails
      exact .inl rfl
  | true =>
      obtain ⟨hq, hparts⟩ := hx rfl
      rw [perform_bind_of_ok (perform_guard_true cause a)] at hfails
      rcases hparts a stop b hfails with hkept | ⟨n, hn, r, c, hperform, hsame⟩
      · exact .inl hkept
      · have hpasses : (Action.guard (q n) cause : Command Unit).perform a = (.ok (), a) := by
          rw [hq n hn, perform_guard_true]
        exact .inr ⟨n, hn, r, c, (perform_bind_of_ok hpasses _).trans hperform, hsame⟩

theorem withLocals (hs : List Handle) (hx : BreaksOff small x first) :
    BreaksOff small (Command.withLocals hs x) fun n => Command.withLocals hs (first n) := by
  intro a stop b hfails
  rw [perform_withLocals] at hfails
  obtain ⟨hstop, rfl⟩ := Prod.mk.inj hfails
  have hinner : x.perform a = (.error stop, (x.perform a).2) := Prod.ext hstop rfl
  rcases hx a stop _ hinner with hkept | ⟨n, hn, r, c, hperform, hsame⟩
  · exact .inl hkept
  · refine .inr ⟨n, hn, r, c.setVm (hs.foldl dropLocal c.vm), ?_, hsame⟩
    rw [perform_withLocals, hperform]

theorem map (f : α → β) (hx : BreaksOff small x first) :
    BreaksOff small (f <$> x) fun n => f <$> first n := by
  intro a stop b hfails
  rcases hperform : x.perform a with ⟨cause | r, near⟩
  · rw [perform_map, hperform] at hfails
    cases hfails
    rcases hx a _ _ hperform with hkept | ⟨n, hn, r, c, hfirst, hsame⟩
    · exact .inl hkept
    · refine .inr ⟨n, hn, f r, c, ?_, hsame⟩
      rw [perform_map, hfirst]
      rfl
  · rw [perform_map, hperform] at hfails
    cases hfails

theorem withRef (id : ObjectId) (cause : ProtocolError) {x : Handle → Command α}
    {first : Handle → Nat → Command α} (hx : ∀ h, BreaksOff small (x h) (first h)) :
    BreaksOff small (Tracking.withRef id cause x)
      fun n => Tracking.withRef id cause fun h => first h n :=
  after (keepsIds_acquire id) fun h => withLocals [h] <| after (keepsIds_guard _ _) fun _ => hx h

theorem withThread (id : ObjectId) {x : Handle → Command α} {first : Handle → Nat → Command α}
    (hx : ∀ h, BreaksOff small (x h) (first h)) :
    BreaksOff small (Tracking.withThread id x) fun n => Tracking.withThread id fun h => first h n :=
  after (keepsIds_acquire id) fun h => withLocals [h] <|
    after (keepsIds_look _) fun _ => after (keepsIds_guard _ _) fun _ => hx h

end BreaksOff

/-! ### Lists that the client asks for -/

namespace Command

namespace Class

/-- The first `n` of the interfaces that a class names. -/
def firstInterfaces (n : Nat) (id : ObjectId) : Command (List ObjectId) :=
  withClass id fun cls => do
    let interfaces ← call (Vm.implementedInterfaces cls)
    withLocals interfaces do
      (interfaces.take n).mapM fun h => TaggedTypeId.typeId <$> trackClass h

theorem breaksOff_interfaces (id : ObjectId) :
    BreaksOff Small.Any (interfaces id) fun n => firstInterfaces n id :=
  .withRef _ _ fun _ => .after (keepsIds_call _) fun interfaces => .withLocals interfaces <|
    (BreaksOff.mapM (fun h => (CountsLast.trackClass h).map _) interfaces).any

theorem breaksOff_values (id : ObjectId) (fields : List FieldId) :
    BreaksOff Small.Any (values id fields) fun n => values id (fields.take n) :=
  .withRef _ _ fun cls => (BreaksOff.mapM (countsLast_value cls) fields).any

end Class

namespace Object

theorem breaksOff_values (id : ObjectId) (fields : List FieldId) :
    BreaksOff Small.Any (values id fields) fun n => values id (fields.take n) := by
  refine .withRef _ _ fun object => .after (keepsIds_native _) fun cls => .withLocals [cls] ?_
  refine .after (keepsIds_guard _ _) fun _ => (BreaksOff.mapM (fun field => ?_) fields).any
  exact .after (keepsIds_look _) fun depth => .after (keepsIds_touch _) fun h =>
    countsLast_valueFrom object field depth h

/-- A shorter run of elements of references starts with the same elements. -/
theorem breaksOff_readArray (array : Handle) (signature : String) (first length : Int) :
    BreaksOff (· < length.toNat) (Reading.readArray array signature first length)
      fun n => Reading.readArray array signature first n := by
  refine .after (keepsIds_inspect _) fun component => .after (keepsIds_inspect _) fun tag => ?_
  by_cases htag : tag.isObject
  · simp only [if_pos htag]
    have hall := BreaksOff.mapM (fun offset : Nat =>
      Reading.countsLast_readElement array tag (first + offset)) (List.range length.toNat)
    refine hall.congr fun n hn => ?_
    rw [List.length_range] at hn
    refine ⟨hn, ?_⟩
    rw [List.take_range, Nat.min_eq_left (Nat.le_of_lt hn)]
    rfl
  · simp only [if_neg htag]
    refine .countsLast (.after (keepsIds_inspect _) fun _ => ?_)
    refine .after (Reading.keepsIds_clearing (keepsIds_native _)) fun _ => ?_
    exact .after (keepsIds_guard _ _) fun _ => .keeps (keepsIds_inspect _)

theorem breaksOff_arrayValues (id : ObjectId) (first length : Int) :
    BreaksOff Small.Any (arrayValues id first length) fun n => arrayValues id first n := by
  have hparts : BreaksOff (· < length.toNat) (arrayValues id first length)
      fun n => arrayValues id first n := by
    refine .withRef _ _ fun array => .after (keepsIds_arraySignature array) fun signature => ?_
    refine .after (keepsIds_native _) fun size => .after (keepsIds_guard _ _) fun _ => ?_
    refine .guard fun hfits => ⟨fun n hn => ?_, breaksOff_readArray array signature first length⟩
    rw [decide_eq_true_eq] at hfits ⊢
    omega
  exact hparts.any

end Object

namespace Frame

theorem breaksOff_values (thread : ObjectId) (frame : FrameId) (slots : List Int) :
    BreaksOff Small.Any (values thread frame slots) fun n => values thread frame (slots.take n) := by
  refine .withThread thread fun h => .after (keepsIds_inspect _) fun depth => ?_
  refine .after (keepsIds_inspect _) fun position => .after (keepsIds_inspect _) fun entries => ?_
  exact (BreaksOff.mapM (countsLast_value h depth position.2 entries) slots).any

end Frame

namespace Thread

/-- Fewer frames may be asked for where some are left. -/
theorem runLength_of_lt {left length run : Int} (hrun : runLength left length = .ok run) {n : Nat}
    (hn : n < run.toNat) : runLength left n = .ok n := by
  have hle : run ≤ left := by
    rw [runLength] at hrun
    split at hrun
    · cases hrun
      exact Int.le_refl _
    · split at hrun
      · cases hrun
      · cases hrun
        omega
  rw [runLength, if_neg (by omega), if_neg (by omega)]

/-- The first frames of a stack. -/
theorem stackTrace_of_lt {vm : Vm} {thread : Handle} {start limit : Int}
    {trace : List (MethodId × CodeIndex)} (htrace : vm.stackTrace thread start limit = .ok trace)
    {n : Nat} (hn : n < trace.length) :
    n < limit.toNat ∧ vm.stackTrace thread start n = .ok (trace.take n) := by
  rw [Vm.stackTrace] at htrace ⊢
  cases hbody : vm.threadOf thread with
  | error e =>
      rw [hbody] at htrace
      cases htrace
  | ok body =>
      rw [hbody] at htrace
      simp only [bind, Except.bind] at htrace ⊢
      split at htrace
      · cases htrace
      · rename_i hwithin
        cases htrace
        simp only [List.length_map, List.length_take] at hn
        rw [if_neg (by omega)]
        refine ⟨by omega, congrArg Except.ok ?_⟩
        rw [← List.map_take, List.take_take, Int.toNat_natCast, Nat.min_eq_left (by omega)]

theorem breaksOff_frames (id : ObjectId) (start length : Int) :
    BreaksOff Small.Any (frames id start length) fun n => frames id start n := by
  refine .withThread id fun thread => .after (keepsIds_inspect _) fun count => ?_
  refine .after (keepsIds_guard _ _) fun _ => .inspect fun a run hrun => ?_
  refine ⟨(· < run.toNat), fun n => n, fun n hn => ⟨trivial, runLength_of_lt hrun hn⟩, ?_⟩
  refine .ask fun vm trace htrace => ?_
  refine ⟨(· < trace.length), fun n => trace.take n, fun n => stackTrace_of_lt htrace, ?_⟩
  have hall := BreaksOff.mapM (fun entry : (MethodId × CodeIndex) × Nat =>
    (Positions.countsLast_locate entry.1.1 entry.1.2).returning fun location =>
      (⟨start.toNat + entry.2, location⟩ : FrameInfo)) trace.zipIdx
  refine hall.congr fun n hn => ⟨by rwa [List.length_zipIdx] at hn, ?_⟩
  have hindexed : (trace.take n).zipIdx = trace.zipIdx.take n := by
    refine List.ext_getElem? fun i => ?_
    rw [List.getElem?_zipIdx, List.getElem?_take, List.getElem?_take, List.getElem?_zipIdx]
    split <;> rfl
  exact congrArg _ hindexed

end Thread

end Command

/-! ### Every command -/

namespace Command

/-- A command that is asked for the first `n` members of its list only. -/
def firstOf (caller : NativeThread) (n : Nat) : ClientCommand → Command Reply
  | .staticValues refType fields => .values <$> Class.values refType (fields.take n)
  | .interfaces refType => .objects <$> Class.firstInterfaces n refType
  | .objectValues object fields => .values <$> Object.values object (fields.take n)
  | .arrayValues array first _ => .values <$> Object.arrayValues array first n
  | .frames thread start _ => .frames <$> Thread.frames thread start n
  | .frameValues thread frame slots => .values <$> Frame.values thread frame (slots.take n)
  | command => ofClient caller command

variable {command : ClientCommand}

/-- A list that cannot be completed leaves behind what a shorter one does. -/
theorem breaksOff_ofClient (caller : NativeThread) (hlists : command.lists) :
    BreaksOff Small.Any (ofClient caller command) fun n => firstOf caller n command := by
  cases command with
  | staticValues refType fields => exact (Class.breaksOff_values refType fields).map _
  | interfaces refType => exact (Class.breaksOff_interfaces refType).map _
  | objectValues object fields => exact (Object.breaksOff_values object fields).map _
  | arrayValues array first length => exact (Object.breaksOff_arrayValues array first length).map _
  | frames thread start length => exact (Thread.breaksOff_frames thread start length).map _
  | frameValues thread frame slots => exact (Frame.breaksOff_values thread frame slots).map _
  | _ => cases hlists

theorem looks_firstOf (caller : NativeThread) (n : Nat) (hlists : command.lists) :
    Looks Control.Any (firstOf caller n command) := by
  cases command with
  | staticValues refType fields => exact looks_map _ (Class.looks_values refType _)
  | interfaces refType =>
      refine looks_map _ (looks_withClass refType fun cls => ?_)
      exact looks_owningAll (.interfaces cls) fun _ =>
        looks_mapM (fun h => looks_map _ (looks_trackClass h)) _
  | objectValues object fields => exact looks_map _ (Object.looks_values object _)
  | arrayValues array first length => exact looks_map _ (Object.looks_arrayValues array first n)
  | frames thread start length => exact looks_map _ (Thread.looks_frames thread start n)
  | frameValues thread frame slots => exact looks_map _ (Frame.looks_values thread frame _)
  | _ => cases hlists

theorem hands_firstOf (caller : NativeThread) (n : Nat) (hlists : command.lists) :
    Hands (firstOf caller n command) Reply.ids := by
  cases command with
  | staticValues refType fields => exact .map _ (Class.hands_values refType _)
  | interfaces refType =>
      refine .map _ (.withRef _ _ fun _ => .after (keepsIds_call _) fun interfaces => ?_)
      exact .withLocals _ (.mapM_self (fun h => .map TaggedTypeId.typeId (.trackClass h)) _)
  | objectValues object fields => exact .map _ (Object.hands_values object _)
  | arrayValues array first length => exact .map _ (Object.hands_arrayValues array first n)
  | frames thread start length => exact .map _ (Thread.hands_frames thread start n)
  | frameValues thread frame slots => exact .map _ (Frame.hands_values thread frame _)
  | _ => cases hlists

end Command

/-! ### Commands that fail -/

/-- Nothing has become known between two states, nothing has been counted, and no global reference
has come or gone. -/
def Agent.CountsSame (a b : Agent) : Prop := b.tracker = a.tracker ∧ a.vm.SameGlobals b.vm

/-- A failure of the command leaves everything counted as it was. -/
def Agent.FailsClean (a : Agent) (caller : NativeThread) (command : ClientCommand) : Prop :=
  ∀ cause b, Agent.serve caller command a = (.error cause, b) → a.CountsSame b

theorem Unmoved.countsSame (h : Unmoved a b) (hpos : a.vm.RefsPositive) : a.CountsSame b :=
  ⟨h.tracker, h.conserves.sameGlobals hpos⟩

theorem onlyLooks_of_lists {command : ClientCommand} (hlists : command.lists) :
    command.onlyLooks := by
  cases command <;> first | rfl | cases hlists

/-- What is left of a list that could not be completed. -/
theorem counted_of_lists (ho : InOrder a) (hpos : a.vm.RefsPositive) {caller : NativeThread}
    {command : ClientCommand} (hlists : command.lists) {cause : ProtocolError}
    (hfails : answer caller (ofClient caller command) a = (.error cause, b)) :
    a.CountsSame b ∨ ∃ n reply c,
      answer caller (firstOf caller n command) a = (.ok reply, c) ∧ c.tracker = b.tracker ∧
        c.vm.globalCount = b.vm.globalCount ∧
        (∀ id, id ≠ 0 → b.references id = a.references id + reply.ids.count id) ∧
        ∃ id ∈ reply.ids, id ≠ 0 := by
  have hattach : Looks Control.Any (attach caller) := .attach trivial caller
  obtain ⟨stop, hperform⟩ := perform_of_answer_error hfails
  have hinspections :=
    (hattach.bind fun _ => (looks_ofClient caller (onlyLooks_of_lists hlists)).any).makes a
  rw [hperform] at hinspections
  have hsame : b.tracker = a.tracker → a.CountsSame b := fun htracker =>
    have hconserves := (conserves_of_inspections ho.toOrderly hinspections).2
    ⟨htracker, (hconserves (congrArg Tracker.nextId htracker)).sameGlobals hpos⟩
  have hbreaks : BreaksOff Small.Any (attach caller >>= fun _ => ofClient caller command)
      fun n => attach caller >>= fun _ => firstOf caller n command :=
    .after (keepsIds_attach caller) fun _ => breaksOff_ofClient caller hlists
  rcases hbreaks a stop b hperform with hkept | ⟨n, -, reply, c, hfirst, htracker⟩
  · exact .inl (hsame hkept)
  obtain ⟨ids, hcounted, hne, hnone⟩ := counted_of_inspections ho.ids hinspections
  cases ids with
  | nil => exact .inl (hsame (hnone rfl))
  | cons id ids =>
      have hshorter : answer caller (firstOf caller n command) a = (.ok reply, c) := by
        rw [answer, seqRight_eq_bind, hfirst]
      have hrose : ∀ id, id ≠ 0 → b.references id = a.references id + reply.ids.count id := by
        rw [funext fun id => (Agent.references.eq_1 b id), ← htracker]
        exact ((hands_firstOf caller n hlists).answer ho.ids hshorter).rose
      refine .inr ⟨n, reply, c, hshorter, htracker, ?_, hrose, id, ?_, hne id List.mem_cons_self⟩
      · have hlooks := (hattach.bind fun _ => looks_firstOf caller n hlists).makes a
        rw [hfirst] at hlooks
        have hc := globalCount_of_inspections ho.toOrderly hpos hlooks
        have hb := globalCount_of_inspections ho.toOrderly hpos hinspections
        rw [htracker, ← hb] at hc
        exact Nat.add_right_cancel hc
      · have hid := hne id List.mem_cons_self
        have hboth := (hcounted.rose id hid).symm.trans (hrose id hid)
        rw [List.count_cons_self] at hboth
        exact List.count_pos_iff.mp (Nat.add_left_cancel hboth ▸ Nat.succ_pos _)

/-- A command that fails has counted nothing, or it was to answer with a list.  It has then counted
each identifier as often as the answer to a shorter list names it, and there is such an identifier:
the client would be told of it by the shorter list, but is not told of it by the failure.  A session
that cannot be opened has counted nothing. -/
theorem failed_command_counts_found (past : Past) (caller : NativeThread) :
    let a := past.agent
    (∀ (command : ClientCommand) {cause : ProtocolError} {b : Agent},
      Agent.serve caller command a = (.error cause, b) →
      a.CountsSame b ∨ command.lists ∧ ∃ n reply c,
        answer caller (firstOf caller n command) a = (.ok reply, c) ∧ c.tracker = b.tracker ∧
          c.vm.globalCount = b.vm.globalCount ∧
          (∀ id, id ≠ 0 → b.references id = a.references id + reply.ids.count id) ∧
          ∃ id ∈ reply.ids, id ≠ 0) ∧
      ∀ (canDeliver : Bool) {cause : ProtocolError} {b : Agent},
        Agent.attach caller canDeliver a = (.error cause, b) → a.CountsSame b := by
  intro a
  have ho : InOrder a := past.inOrder
  refine ⟨fun command cause b hfails => ?_, fun canDeliver cause b hfails => ?_⟩
  · have hcommand : command ≠ .capabilities := by
      rintro rfl
      cases hfails
    rw [Agent.serve_eq hcommand] at hfails
    cases hlists : command.lists with
    | false =>
        have hunmoved := (unwinds_ofClient caller hlists).answer ho.toOrderly hfails
        exact .inl (hunmoved.countsSame past.refsPositive)
    | true =>
        rcases counted_of_lists ho past.refsPositive hlists hfails with hsame | hcounted
        · exact .inl hsame
        · exact .inr ⟨rfl, hcounted⟩
  · have hunmoved := (unwinds_opening canDeliver).answer ho.toOrderly hfails
    exact hunmoved.countsSame past.refsPositive

/-- A class with a static field that holds a string.  The client knows the class by the identifier 1.
-/
def greeted : Past :=
  ⟨[.defineClass "LMain;", .newString "hello",
      .addStaticField 9 "greeting" "Ljava/lang/String;" (.reference (some 10))], {},
    [.op (.command (.client 0) (.classesBySignature "LMain;"))]⟩

/-- The second field asked for is none of the class.  By then the string of the first is counted, as
it is if that one alone is asked for.  A session that nothing could deliver to is refused, and nothing
is counted by then. -/
theorem first_field_counted :
    let a := greeted.agent
    let outcome := Agent.serve (.client 0) (.staticValues 1 [0x100, 9999]) a
    let opened := Agent.attach (.client 0) false a
    outcome.1 = .error .invalidFieldId ∧ a.tracker.size = 1 ∧ outcome.2.tracker.size = 2 ∧
      (∃ n reply c, answer (.client 0) (firstOf (.client 0) n (.staticValues 1 [0x100, 9999])) a =
        (.ok reply, c) ∧ c.tracker = outcome.2.tracker ∧ ∃ id ∈ reply.ids, id ≠ 0) ∧
      opened.1 = .error .internal ∧ a.CountsSame opened.2 := by
  intro a outcome opened
  have hanswer : outcome.1 = .error .invalidFieldId := by decide +kernel
  have hfails : outcome = (.error .invalidFieldId, outcome.2) := by rw [← hanswer]
  have hbefore : a.tracker.size = 1 := by decide +kernel
  have hafter : outcome.2.tracker.size = 2 := by decide +kernel
  have hrefused : opened.1 = .error .internal := by decide +kernel
  have hunopened : opened = (.error .internal, opened.2) := by rw [← hrefused]
  obtain ⟨hcommands, hopening⟩ := failed_command_counts_found greeted (.client 0)
  refine ⟨hanswer, hbefore, hafter, ?_, hrefused, hopening false hunopened⟩
  rcases hcommands (.staticValues 1 [0x100, 9999]) hfails with
    ⟨hsame, -⟩ | ⟨-, n, reply, c, hshorter, htracker, -, -, hnamed⟩
  · have hsize := congrArg Tracker.size hsame
    rw [hafter, hbefore] at hsize
    cases hsize
  · exact ⟨n, reply, c, hshorter, htracker, hnamed⟩

/-- The client is told that a field is invalid, and owes the identifier of a string that it has not
been told of. -/
theorem counted_though_refused :
    ¬ Agent.FailsClean greeted.agent (.client 0) (.staticValues 1 [0x100, 9999]) := by
  intro hclean
  let outcome := Agent.serve (.client 0) (.staticValues 1 [0x100, 9999]) greeted.agent
  have hanswer : outcome.1 = .error .invalidFieldId := by decide +kernel
  have hfails : outcome = (.error .invalidFieldId, outcome.2) := by rw [← hanswer]
  have hsize := congrArg Tracker.size (hclean _ _ hfails).1
  have hbefore : greeted.agent.tracker.size = 1 := by decide +kernel
  have hafter : outcome.2.tracker.size = 2 := by decide +kernel
  rw [hafter, hbefore] at hsize
  cases hsize

end DebugAgent
