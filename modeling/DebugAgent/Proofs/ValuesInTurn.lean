import DebugAgent.Proofs.Reopened

/-!
# Values one after the other

The client may ask for several fields or slots in one command or in as many commands as there are,
which it issues one after the other until one is refused.  It is told the same, and what it knows in
the end is the same.  A list of values is read from objects that stay where they are as long as
nothing but values is read, so the references to them may as well be taken anew for each value.
-/

namespace DebugAgent

open DebugAgent.Action Command Tracking

/-! ### Commands issued one after the other -/

/-- Commands that a native thread issues one after the other, until one of them fails. -/
def Agent.inTurn (caller : NativeThread) : List ClientCommand → Answer (List Reply)
  | [], a => (.ok [], a)
  | command :: commands, a =>
      match Agent.serve caller command a with
      | (.error cause, b) => (.error cause, b)
      | (.ok reply, b) =>
          let rest := Agent.inTurn caller commands b
          (rest.1.map (reply :: ·), rest.2)

/-- The values that a reply lists. -/
def Reply.listed : Reply → List Value
  | .values vs => vs
  | _ => []

/-- The places whose values can be asked for together: fields of an object, static fields of a
class, slots of a frame. -/
inductive Places where
  | ofObject (object : ObjectId) (fields : List FieldId)
  | ofClass (refType : ObjectId) (fields : List FieldId)
  | ofFrame (thread : ObjectId) (frame : FrameId) (slots : List Int)

namespace Places

/-- The command that asks for the values of all the places. -/
def together : Places → ClientCommand
  | ofObject object fields => .objectValues object fields
  | ofClass refType fields => .staticValues refType fields
  | ofFrame thread frame slots => .frameValues thread frame slots

/-- The commands that ask for the value of one place each, in order. -/
def oneByOne : Places → List ClientCommand
  | ofObject object fields => fields.map fun field => .objectValues object [field]
  | ofClass refType fields => fields.map fun field => .staticValues refType [field]
  | ofFrame thread frame slots => slots.map fun slot => .frameValues thread frame [slot]

end Places

/-! ### Lists that are read place by place -/

/-- Asks for one place after the other. -/
def Command.eachAlone {ι α : Type} (x : List ι → Command (List α)) : List ι → Command (List α)
  | [] => pure []
  | i :: is => do
      let first ← x [i]
      let rest ← eachAlone x is
      return first ++ rest

/-- As long as `P` holds, the command reads place by place with references to the objects, and
looking at the machine keeps `P`. -/
structure ReadsPlaces {ι α : Type} (P : Agent → Prop) (objects : List HeapId)
    (f : List Handle → ι → Command α) (x : List ι → Command (List α)) : Prop where
  looks : ∀ is, Looks Control.Any (x is)
  stays : Agent.Stays P
  has : ∀ {a : Agent}, a.InShape → P a → a.vm.Has objects
  reads : ∀ {a : Agent}, a.InShape → P a → ∀ is,
    (x is).perform a = (opening objects fun hs => is.mapM (f hs)).perform a
  looksAt : ∀ hs i, Looks Control.Any (f hs i)
  lockstep : ∀ i {p : Pairing} {hs ks}, List.Forall₂ p.stands hs ks →
    Lockstep (Agent.Paired p) Eq (f hs i) (f ks i)

namespace ReadsPlaces

variable {ι α : Type} {P : Agent → Prop} {objects : List HeapId} {f : List Handle → ι → Command α}
  {x : List ι → Command (List α)} {a : Agent}

theorem perform_opening_map {β : Type} (g : α → β) (y : List Handle → Command α) (a : Agent) :
    (opening objects fun hs => g <$> y hs).perform a =
      (((opening objects y).perform a).1.map g, ((opening objects y).perform a).2) := by
  rw [perform_opening, perform_opening, perform_withLocals, perform_withLocals, perform_map]

/-- Reading one place is reading the list of it. -/
theorem perform_singleton (h : ReadsPlaces P objects f x) (hshape : a.InShape) (ha : P a) (i : ι) :
    (x [i]).perform a =
      (((opening objects fun hs => f hs i).perform a).1.map fun r => [r],
        ((opening objects fun hs => f hs i).perform a).2) := by
  rw [h.reads hshape ha, ← perform_opening_map, perform_opening, perform_opening,
    perform_withLocals, perform_withLocals, Object.perform_mapM_singleton]

/-- The first place may be read with references of its own. -/
theorem alike_cons (h : ReadsPlaces P objects f x) (hshape : a.InShape) (hholds : HoldsSoundly a)
    (ha : P a) (i : ι) (is : List ι) :
    Alike Agent.SameBooks Eq ((x (i :: is)).perform a)
      ((x [i] >>= fun first => x is >>= fun rest => pure (first ++ rest)).perform a) := by
  have hagain := opening_again hshape hholds (h.has hshape ha) (x := fun hs => f hs i)
    (y := fun r hs => (r :: ·) <$> is.mapM (f hs)) (fun hs => h.looksAt hs i)
    fun r _ _ _ hstands => lockstep_map_eq _ (lockstep_mapM_same
      (fun j => h.lockstep j hstands) is)
  have hwhole : (x (i :: is)).perform a = (opening objects fun hs =>
      f hs i >>= fun r => (r :: ·) <$> is.mapM (f hs)).perform a := by
    simp only [h.reads hshape ha, List.mapM_cons, map_eq_pure_bind]
  have hshape' := hshape.looks (h.looks [i])
  have ha' := h.stays (h.looks [i]) hshape ha
  rw [h.perform_singleton hshape ha i] at hshape' ha'
  rw [hwhole, perform_bind (x [i]), h.perform_singleton hshape ha i]
  rw [perform_bind] at hagain
  generalize (opening objects fun hs => f hs i).perform a = first at *
  obtain ⟨stop | r, b⟩ := first
  · exact hagain
  · dsimp only [Except.map] at hagain ⊢
    rw [perform_opening_map, ← h.reads hshape' ha'] at hagain
    rw [bind_pure_comp, perform_map]
    exact hagain

/-- The places may be read with the same references or each with references of its own. -/
theorem alike (h : ReadsPlaces P objects f x) (hshape : a.InShape) (hholds : HoldsSoundly a)
    (ha : P a) (i : ι) (is : List ι) :
    Alike Agent.SameBooks Eq ((x (i :: is)).perform a) ((eachAlone x (i :: is)).perform a) := by
  induction is generalizing a i with
  | nil =>
      rw [eachAlone, eachAlone, perform_bind]
      rcases (x [i]).perform a with ⟨stop | rs, b⟩
      · exact .stops (.refl b)
      · exact .results (.refl b) (List.append_nil rs).symm
  | cons j js ih =>
      refine Alike.trans (S := Agent.SameBooks) (fun h h' => h.trans h')
        (h.alike_cons hshape hholds ha i (j :: js)) ?_
      have hshape' := hshape.looks (h.looks [i])
      have hholds' := stays_holdsSoundly (h.looks [i]) hshape hholds
      have ha' := h.stays (h.looks [i]) hshape ha
      rw [eachAlone, perform_bind, perform_bind]
      generalize (x [i]).perform a = first at *
      obtain ⟨stop | rs, b⟩ := first
      · exact .stops (.refl b)
      · dsimp only
        rw [bind_pure_comp, bind_pure_comp, perform_map, perform_map]
        have hrest := ih hshape' hholds' ha' j
        generalize (x (j :: js)).perform b = whole at hrest ⊢
        generalize (eachAlone x (j :: js)).perform b = turns at hrest ⊢
        cases hrest with
        | results hstates hresults => exact .results hstates (congrArg _ hresults)
        | stops hstates => exact .stops hstates

end ReadsPlaces

/-! ### The three kinds of places -/

/-- Of a list, references stand for each other position by position. -/
theorem Pairing.stands_getD {p : Pairing} {hs ks : List Handle} (h : List.Forall₂ p.stands hs ks)
    (n : Nat) : p.stands (hs.getD n .null) (ks.getD n .null) := by
  induction h generalizing n with
  | nil => exact p.null
  | cons hfirst _ ih =>
      cases n with
      | zero => exact hfirst
      | succ n => exact ih n

/-- The command reads place by place, or it fails for a reason that has nothing to do with the
places. -/
def Agent.ReadsOrFails {ι α : Type} (a : Agent) (x : List ι → Command (List α)) : Prop :=
  (∃ P objects f, ReadsPlaces P objects f x ∧ P a) ∨
    ∃ stop b, ∀ is, (x is).perform a = (.error stop, b)

theorem Agent.ReadsOrFails.alike {ι α : Type} {a : Agent} {x : List ι → Command (List α)}
    (h : a.ReadsOrFails x) (hshape : a.InShape) (hholds : HoldsSoundly a) (i : ι) (is : List ι) :
    Alike Agent.SameBooks Eq ((x (i :: is)).perform a) ((eachAlone x (i :: is)).perform a) := by
  rcases h with ⟨P, objects, f, hreads, ha⟩ | ⟨stop, b, hfails⟩
  · exact hreads.alike hshape hholds ha i is
  · rw [eachAlone, perform_bind, hfails, hfails]
    exact .stops (.refl b)

section Kinds

variable {a : Agent} {id : ObjectId} {object : HeapId}

theorem stays_designates (id : ObjectId) (object : HeapId) :
    Agent.Stays fun a => a.Designates id object :=
  fun hx hshape h => (Recalls.looks hshape.toInOrder hx).designates h

/-- Static fields are read from the class that is named. -/
theorem readsPlaces_ofClass (id : ObjectId) (owner : HeapId) :
    ReadsPlaces (fun a => a.Designates id owner) [owner]
      (fun hs field => Class.value (hs.getD 0 .null) field) (Class.values id) where
  looks := Class.looks_values id
  stays := stays_designates id owner
  has hshape ha := Vm.has_cons.mpr ⟨hshape.live_of_target? ha.target?, Vm.has_nil⟩
  reads _ ha _ := perform_withRef_live ha.target? _
  looksAt _ field := Class.looks_value _ field
  lockstep field _ _ _ hstands := Class.lockstep_value (Pairing.stands_getD hstands 0) field

/-- Fields are read from the object that is named, with its class at hand. -/
theorem readsPlaces_ofObject (id : ObjectId) (target cls : HeapId) :
    ReadsPlaces (fun a => a.Designates id target ∧
        (a.vm.natureAt? target).map Nature.cls = some cls) [target, cls]
      (fun hs field => Object.value (hs.getD 0 .null) (hs.getD 1 .null) field)
      (Object.values id) where
  looks := Object.looks_values id
  stays := by
    rintro β x a hx hshape ⟨hnamed, hcls⟩
    have hrecalls := Recalls.looks hshape.toInOrder hx
    obtain ⟨nature, hnature, hcls⟩ := Option.map_eq_some_iff.mp hcls
    exact ⟨hrecalls.designates hnamed, by rw [hrecalls.endures.natures hnature, Option.map_some, hcls]⟩
  has := by
    rintro a hshape ⟨hnamed, hcls⟩
    obtain ⟨nature, hnature, rfl⟩ := Option.map_eq_some_iff.mp hcls
    obtain ⟨held, hheld, rfl⟩ := Vm.natureAt?_eq_some.mp hnature
    exact Vm.has_cons.mpr ⟨hshape.live_of_target? hnamed.target?,
      Vm.has_cons.mpr ⟨(Vm.has_cons.mp (hshape.closed.heap hheld)).1, Vm.has_nil⟩⟩
  reads := by
    rintro a hshape ⟨hnamed, hcls⟩ is
    obtain ⟨nature, hnature, rfl⟩ := Option.map_eq_some_iff.mp hcls
    obtain ⟨held, hheld, rfl⟩ := Vm.natureAt?_eq_some.mp hnature
    exact Object.perform_withClassOf_live hshape.closed hnamed.target? hheld _
  looksAt _ field := Object.looks_value _ _ field
  lockstep field _ _ _ hstands :=
    Object.lockstep_value (Pairing.stands_getD hstands 0) (Pairing.stands_getD hstands 1) field

/-- The client knows a live thread that has a frame at a depth, and the variables of the frame's
method are known. -/
structure Agent.HasFrame (a : Agent) (id : ObjectId) (thread : HeapId) (depth : Nat) (frame : Frame)
    (entries : List LocalVariable) : Prop where
  named : a.Designates id thread
  live : a.vm.isLiveThread thread = true
  stands : a.vm.frameAt? thread depth = some frame
  table : a.vm.localVariableTable frame.method = .ok entries

theorem Vm.KeepsWorld.isLiveThread {vm vm' : Vm} (h : vm.KeepsWorld vm') {thread : HeapId}
    (hlive : vm.isLiveThread thread = true) : vm'.isLiveThread thread = true := by
  rw [Vm.isLiveThread] at hlive ⊢
  cases hbody : vm.threadAt? thread with
  | none =>
      rw [hbody] at hlive
      cases hlive
  | some body =>
      obtain ⟨later, hlater, -, hsame⟩ := h.threads hbody
      rw [hbody, Option.any_some] at hlive
      rwa [hlater, Option.any_some, hsame]

/-- Slots are read from the frame that is named. -/
theorem readsPlaces_ofFrame {depth : Nat} (hdepth : depth < 0x80000000) (id : ObjectId)
    (thread : HeapId) (frame : Frame) (entries : List LocalVariable) :
    ReadsPlaces (fun a => a.HasFrame id thread depth frame entries) [thread]
      (fun hs slot => Frame.value (hs.getD 0 .null) depth frame.location entries slot)
      (Frame.values id depth) where
  looks := Frame.looks_values id depth
  stays := by
    rintro β x a hx hshape ⟨hnamed, hlive, hframe, htable⟩
    have hworld := hx.keepsWorld.perform a
    exact ⟨stays_designates id thread hx hshape hnamed, hworld.isLiveThread hlive,
      hworld.frameAt? hframe, (hworld.localVariableTable _).trans htable⟩
  has hshape ha := Vm.has_cons.mpr ⟨hshape.live_of_target? ha.named.target?, Vm.has_nil⟩
  reads := by
    rintro a hshape ⟨hnamed, hlive, hframe, htable⟩ is
    have htarget : (a.opened thread).vm.target? (a.vm.newLocal thread).1 = some thread :=
      Vm.target?_newRef a.vm .localRef thread
    have hlocation : (ask fun vm => vm.frameLocation (a.vm.newLocal thread).1 depth).perform
        (a.opened thread) = (.ok (frame.method, frame.location), a.opened thread) :=
      perform_ask_ok (Vm.frameLocation_eq htarget hframe)
    have hentries : (ask fun vm => vm.localVariableTable frame.method).perform (a.opened thread) =
        (.ok entries, a.opened thread) := perform_ask_ok htable
    rw [Frame.values, perform_withThread_live hnamed.target? hlive, perform_withLocal,
      perform_bind_of_ok (Frame.perform_depthOf hdepth), perform_bind_of_ok hlocation,
      perform_bind_of_ok hentries]
    rfl
  looksAt _ slot := Frame.looks_value _ _ _ _ slot
  lockstep slot _ _ _ hstands :=
    Frame.lockstep_value (Pairing.stands_getD hstands 0) depth frame.location entries slot

theorem readsOrFails_ofClass (hholds : HoldsSoundly a) (id : ObjectId) :
    a.ReadsOrFails (Class.values id) := by
  cases hnamed : a.tracker.target? a.vm id with
  | none => exact .inr ⟨_, a, fun is => perform_withRef_dead hnamed _⟩
  | some owner =>
      exact .inl ⟨_, _, _, readsPlaces_ofClass id owner, hholds.target?_eq_some.mp hnamed⟩

theorem readsOrFails_ofObject (hshape : a.InShape) (hholds : HoldsSoundly a) (id : ObjectId) :
    a.ReadsOrFails (Object.values id) := by
  cases hnamed : a.tracker.target? a.vm id with
  | none => exact .inr ⟨_, a, fun is => perform_withRef_dead hnamed _⟩
  | some target =>
      have hlive := hshape.live_of_target? hnamed
      have hnature : a.vm.natureAt? target = some a.vm.heap[target].nature := by
        rw [Vm.natureAt?, Array.getElem?_eq_getElem hlive, Option.map_some]
      exact .inl ⟨_, _, _, readsPlaces_ofObject id target a.vm.heap[target].cls,
        hholds.target?_eq_some.mp hnamed, by rw [hnature, Option.map_some]; rfl⟩

theorem perform_ask_error {α : Type} {query : Vm → Except JvmtiError α} {cause : JvmtiError}
    (hquery : query a.vm = .error cause) :
    (ask query).perform a = (.error (.refused cause.toProtocol), a) := by
  simp [ask, hquery]

/-- What comes first is refused, and the rest is not looked at. -/
theorem perform_bind_of_error {α β : Type} {x : Command α} {b : Agent} {stop : Stop ProtocolError}
    (h : x.perform a = (.error stop, b)) (f : α → Command β) :
    (x >>= f).perform a = (.error stop, b) := by
  rw [perform_bind, h]

theorem frameLocation_refused {vm : Vm} {h : Handle} {thread : HeapId} {depth : Nat}
    (htarget : vm.target? h = some thread) (hnone : vm.frameAt? thread depth = none) :
    ∃ cause, vm.frameLocation h depth = .error cause := by
  cases hlocation : vm.frameLocation h depth with
  | error cause => exact ⟨cause, rfl⟩
  | ok location =>
      rw [Vm.frameLocation, Vm.threadOf, htarget, Option.bind_some] at hlocation
      rw [Vm.frameAt?] at hnone
      cases hbody : vm.threadAt? thread with
      | none =>
          rw [hbody] at hlocation
          cases hlocation
      | some body =>
          rw [hbody, Option.bind_some] at hnone
          have hdepth : ¬ (depth : Int) < 0 := Int.not_lt.mpr (Int.natCast_nonneg depth)
          simp [hbody, hnone, hdepth, bind, Except.bind] at hlocation

/-- What is done with a live thread may fail for a reason that has nothing to do with the places. -/
theorem readsOrFails_of_stop {ι α : Type} {x : List ι → Handle → Command (List α)}
    (hnamed : a.tracker.target? a.vm id = some object) (hlive : a.vm.isLiveThread object = true)
    {stop : Stop ProtocolError} (hstop : ∀ is, (x is (a.vm.newLocal object).1).perform
      (a.opened object) = (.error stop, a.opened object)) :
    a.ReadsOrFails fun is => withThread id (x is) :=
  .inr ⟨stop, _, fun is => by
    rw [perform_withThread_live hnamed hlive, perform_withLocal, hstop is]⟩

/-- Whether slots can be read shows before any slot is looked at. -/
theorem readsOrFails_ofFrame (hshape : a.InShape) (hholds : HoldsSoundly a) (id : ObjectId)
    (depth : FrameId) : a.ReadsOrFails (Frame.values id depth) := by
  cases hnamed : a.tracker.target? a.vm id with
  | none => exact .inr ⟨_, a, fun slots => perform_withThread_dead hnamed _⟩
  | some thread =>
      cases hlive : a.vm.isLiveThread thread with
      | false => exact .inr ⟨_, _, fun slots => perform_withThread_ended hshape.refs hnamed hlive _⟩
      | true =>
          by_cases hdepth : depth < 0x80000000
          · have hcount : (Action.ofExcept (Frame.depthOf depth) : Command Int).perform
                (a.opened thread) = (.ok ↑depth, a.opened thread) := Frame.perform_depthOf hdepth
            have htarget : (a.opened thread).vm.target? (a.vm.newLocal thread).1 = some thread :=
              Vm.target?_newRef a.vm .localRef thread
            cases hframe : a.vm.frameAt? thread depth with
            | none =>
                obtain ⟨cause, hrefused⟩ := frameLocation_refused htarget hframe
                exact readsOrFails_of_stop hnamed hlive fun slots =>
                  (perform_bind_of_ok hcount _).trans
                    (perform_bind_of_error (perform_ask_error hrefused) _)
            | some frame =>
                have hlocation : (ask fun vm => vm.frameLocation (a.vm.newLocal thread).1 depth).perform
                    (a.opened thread) = (.ok (frame.method, frame.location), a.opened thread) :=
                  perform_ask_ok (Vm.frameLocation_eq htarget hframe)
                cases htable : a.vm.localVariableTable frame.method with
                | error cause =>
                    exact readsOrFails_of_stop hnamed hlive fun slots =>
                      (perform_bind_of_ok hcount _).trans ((perform_bind_of_ok hlocation _).trans
                        (perform_bind_of_error (perform_ask_error (a := a.opened thread) htable) _))
                | ok entries =>
                    exact .inl ⟨_, _, _, readsPlaces_ofFrame hdepth id thread frame entries,
                      hholds.target?_eq_some.mp hnamed, hlive, hframe, htable⟩
          · have hcount : (Action.ofExcept (Frame.depthOf depth) : Command Int).perform
                (a.opened thread) = (.error (.refused .invalidFrameId), a.opened thread) := by
              rw [Frame.depthOf, if_neg hdepth]
              rfl
            exact readsOrFails_of_stop hnamed hlive fun slots => perform_bind_of_error hcount _

end Kinds

/-! ### Native threads that are attached already -/

section Attached

variable {a : Agent} {caller : NativeThread}

/-- A native thread that is attached stays so when the machine is looked at. -/
theorem attached_of_looks {α : Type} {x : Command α} (hx : Looks Control.Any x) {own : HeapId}
    (hown : a.vm.attached.get? caller = some own) :
    (x.perform a).2.vm.attached.get? caller = some own := by
  have hinspections := hx.makes a
  generalize (x.perform a).2 = last at hinspections
  induction hinspections with
  | refl => exact hown
  | tail _ hlast ih => exact hlast.attached ih

theorem Vm.attach_of_attached {vm : Vm} {own : HeapId} (hown : vm.attached.get? caller = some own) :
    (vm.attach caller).2 = vm := by
  rw [Vm.attach, hown]

/-- It makes no difference to a command whether the native thread has been attached before. -/
theorem Agent.serve_attached (hattach : a.vm.attachFails = false) {command : ClientCommand}
    (hnot : command ≠ .capabilities) :
    Agent.serve caller command (a.setVm (a.vm.attach caller).2) = Agent.serve caller command a := by
  have hattach' : (a.setVm (a.vm.attach caller).2).vm.attachFails = false :=
    (attachFails_attach a.vm caller).trans hattach
  have hagain : ((a.setVm (a.vm.attach caller).2).vm.attach caller).2 = (a.vm.attach caller).2 :=
    Vm.attach_of_attached (Vm.attached_attach a.vm caller)
  rw [Agent.serve_eq hnot, answer_of_attaching hattach, answer_of_attaching hattach', hagain]
  rfl

end Attached

/-! ### What the client gets -/

section Values

variable {ι : Type} {a : Agent} {caller : NativeThread} {x : List ι → Command (List Value)}
  {command : List ι → ClientCommand}

theorem mapError_map {ε δ α β : Type} (f : α → β) (g : ε → δ) (r : Except ε α) :
    (r.map f).mapError g = (r.mapError g).map f := by
  cases r <;> rfl

/-- What the client gets from commands of which each asks for the value of one place. -/
theorem inTurn_eq (hcommand : ∀ is, ofClient caller (command is) = .values <$> x is)
    (hnot : ∀ is, command is ≠ .capabilities) (hlooks : ∀ is, Looks Control.Any (x is))
    (hattach : a.vm.attachFails = false) {own : HeapId}
    (hown : a.vm.attached.get? caller = some own) (is : List ι) :
    let turns := Agent.inTurn caller (is.map fun i => command [i]) a
    turns.1.map (List.flatMap Reply.listed) = ((eachAlone x is).perform a).1.mapError Stop.told ∧
      turns.2 = ((eachAlone x is).perform a).2 := by
  induction is generalizing a with
  | nil => exact ⟨rfl, rfl⟩
  | cons i is ih =>
      have hserved : Agent.serve caller (command [i]) a =
          ((((x [i]).perform a).1.map .values).mapError Stop.told, ((x [i]).perform a).2) := by
        rw [Agent.serve_eq_map hattach (hnot [i]) (hcommand [i]), Vm.attach_of_attached hown]
        rfl
      have hattach' := ((hlooks [i]).keepsWorld.perform a).attachFails.trans hattach
      have hown' := attached_of_looks (hlooks [i]) hown
      rw [List.map_cons, Agent.inTurn, hserved, eachAlone, perform_bind]
      generalize (x [i]).perform a = first at *
      obtain ⟨stop | rs, b⟩ := first
      · exact ⟨rfl, rfl⟩
      · obtain ⟨hrest, hlast⟩ := ih hattach' hown'
        dsimp only [Except.map, mapError_ok] at hrest ⊢
        rw [bind_pure_comp, perform_map, ← hlast]
        refine ⟨?_, rfl⟩
        generalize (Agent.inTurn caller (is.map fun j => command [j]) b).1 = turns at hrest ⊢
        generalize ((eachAlone x is).perform b).1 = rest at hrest ⊢
        cases turns with
        | error cause =>
            cases rest with
            | error stop => exact congrArg _ (Except.error.inj hrest)
            | ok => cases hrest
        | ok replies =>
            cases rest with
            | error => cases hrest
            | ok others => exact congrArg (fun vs => Except.ok (rs ++ vs)) (Except.ok.inj hrest)

variable (command) in
/-- What the client gets from a command for several places, and from one command for each. -/
theorem serve_inTurn (h : a.Reachable)
    (hcommand : ∀ is, ofClient caller (command is) = .values <$> x is)
    (hnot : ∀ is, command is ≠ .capabilities) (hlooks : ∀ is, Looks Control.Any (x is))
    (hreads : ∀ {b : Agent}, b.InShape → HoldsSoundly b → b.ReadsOrFails x) (i : ι) (is : List ι) :
    let whole := Agent.serve caller (command (i :: is)) a
    let turns := Agent.inTurn caller ((i :: is).map fun j => command [j]) a
    whole.1 = turns.1.map (fun replies => .values (replies.flatMap Reply.listed)) ∧
      whole.2.SameBooks turns.2 := by
  cases hattach : a.vm.attachFails with
  | true =>
      have hfails : ∀ is, Agent.serve caller (command is) a = (.error .internal, a) := fun is => by
        rw [Agent.serve_eq (hnot is), answer_of_not_attaching hattach]
      rw [List.map_cons, Agent.inTurn, hfails, hfails]
      exact ⟨rfl, .refl a⟩
  | false =>
      let near := a.setVm (a.vm.attach caller).2
      have hnear : near.Reachable := h.attached hattach caller
      have hattach' : near.vm.attachFails = false := (attachFails_attach a.vm caller).trans hattach
      have hown := Vm.attached_attach a.vm caller
      have hturns : Agent.inTurn caller ((i :: is).map fun j => command [j]) a =
          Agent.inTurn caller ((i :: is).map fun j => command [j]) near := by
        rw [List.map_cons, Agent.inTurn, Agent.inTurn, Agent.serve_attached hattach (hnot [i])]
      obtain ⟨hanswers, hlast⟩ := inTurn_eq hcommand hnot hlooks hattach' hown (i :: is)
      have halike := (hreads hnear.inShape hnear.consistent.holds).alike hnear.inShape
        hnear.consistent.holds i is
      have hwhole : Agent.serve caller (command (i :: is)) a =
          ((((x (i :: is)).perform near).1.map .values).mapError Stop.told,
            ((x (i :: is)).perform near).2) := Agent.serve_eq_map hattach (hnot _) (hcommand _)
      rw [hwhole, hturns]
      refine ⟨?_, hlast ▸ halike.states⟩
      rw [halike.results_eq, mapError_map, ← hanswers]
      cases (Agent.inTurn caller ((i :: is).map fun j => command [j]) near).1 <;> rfl

end Values

/-- The values of several places may be asked for together, or one after the other until a command
fails.  The client is told the same: the values of all the places if all the commands come to a
result, and otherwise what the first one that fails is answered.  Afterwards the same identifiers are
in use, have been handed out as often and designate the same objects. -/
theorem values_one_after_the_other {a : Agent} (h : a.Reachable) (caller : NativeThread)
    (places : Places) (hsome : places.oneByOne ≠ []) :
    let whole := Agent.serve caller places.together a
    let turns := Agent.inTurn caller places.oneByOne a
    whole.1 = turns.1.map (fun replies => .values (replies.flatMap Reply.listed)) ∧
      whole.2.SameBooks turns.2 := by
  cases places with
  | ofObject object fields =>
      cases fields with
      | nil => exact absurd rfl hsome
      | cons field fields =>
          exact serve_inTurn (.objectValues object) h (fun _ => rfl) (fun _ => by simp)
            (Object.looks_values object) (fun hb hs => readsOrFails_ofObject hb hs object) field fields
  | ofClass refType fields =>
      cases fields with
      | nil => exact absurd rfl hsome
      | cons field fields =>
          exact serve_inTurn (.staticValues refType) h (fun _ => rfl) (fun _ => by simp)
            (Class.looks_values refType) (fun _ hs => readsOrFails_ofClass hs refType) field fields
  | ofFrame thread frame slots =>
      cases slots with
      | nil => exact absurd rfl hsome
      | cons slot slots =>
          exact serve_inTurn (.frameValues thread frame) h (fun _ => rfl) (fun _ => by simp)
            (Frame.looks_values thread frame)
            (fun hb hs => readsOrFails_ofFrame hb hs thread frame) slot slots

/-- An object, known as object 1, with two fields that keep one other object. -/
def pair : Agent :=
  (Agent.start Vm.fresh {}).run
    [.setup (.defineClass "LPair;"), .setup (.addInstanceField 9 "left" "LPair;"),
      .setup (.addInstanceField 9 "right" "LPair;"), .setup (.newObject 9), .setup (.newObject 9),
      .setup (.setField 10 0x100 (.reference (some 11))),
      .setup (.setField 10 0x101 (.reference (some 11))), .setup (.takeRef 10),
      .trackNew (.client 0) ⟨0x1000⟩]

/-- The object in both fields becomes known as object 2, which has been handed out twice in the end.
A field that there is not is refused after the one before it has been read. -/
theorem pair_told_in_turn : pair.Reachable ∧
    (Places.ofObject 1 [0x100, 0x101]).oneByOne ≠ [] ∧
    (Agent.serve (.client 0) (.objectValues 1 [0x100, 0x101]) pair).1 =
      .ok (.values [.ofObject ⟨.object, 2⟩, .ofObject ⟨.object, 2⟩]) ∧
    ((Agent.serve (.client 0) (.objectValues 1 [0x100, 0x101]) pair).2.tracker.entries.get? 2).map
      Tracked.references = some 2 ∧
    (Agent.serve (.client 0) (.objectValues 1 [0x100, 0x102, 0x101]) pair).1 =
      .error .invalidFieldId ∧
    ((Agent.serve (.client 0) (.objectValues 1 [0x100, 0x102, 0x101]) pair).2.tracker.entries.get?
      2).map Tracked.references = some 1 := by
  have hreachable : pair.Reachable := by
    apply Agent.Reachable.run (.start {})
    decide +kernel
  have hsome : (Places.ofObject 1 [0x100, 0x101]).oneByOne ≠ [] := by simp [Places.oneByOne]
  have hboth := values_one_after_the_other hreachable (.client 0) (.ofObject 1 [0x100, 0x101]) hsome
  have hfirst := values_one_after_the_other hreachable (.client 0)
    (.ofObject 1 [0x100, 0x102, 0x101]) (by simp [Places.oneByOne])
  have hturns : (Agent.inTurn (.client 0) (Places.ofObject 1 [0x100, 0x101]).oneByOne pair).1 =
      .ok [.values [.ofObject ⟨.object, 2⟩], .values [.ofObject ⟨.object, 2⟩]] := by decide +kernel
  have hrefused : (Agent.inTurn (.client 0) (Places.ofObject 1 [0x100, 0x102, 0x101]).oneByOne
      pair).1 = .error .invalidFieldId := by decide +kernel
  refine ⟨hreachable, hsome, ?_, ?_, ?_, ?_⟩
  · exact hboth.1.trans (by rw [hturns]; rfl)
  · exact (hboth.2.references 2).symm.trans (by decide +kernel)
  · exact hfirst.1.trans (by rw [hrefused]; rfl)
  · exact (hfirst.2.references 2).symm.trans (by decide +kernel)

end DebugAgent
