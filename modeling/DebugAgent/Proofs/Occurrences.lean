import DebugAgent.Proofs.Alone
import DebugAgent.Proofs.FrameLists

/-!
# What events tell

A callback carries references, and its events carry identifiers and positions that the agent has
worked out on the way.  The nine kinds of callback are captured each in its own way, and a position is
worked out anew for each event and for each list of frames.  Still all of them tell the same: whatever
has been given back or become known before, an identifier in an event designates the object of the
callback, and a position is the one that a list of frames tells of a frame there.
-/

namespace DebugAgent

open DebugAgent.Action Command Tracking
open Relation (ReflTransGen)

/-! ### Occurrences -/

/-- The objects that a callback carries references to. -/
def Callback.resolved (vm : Vm) (c : Callback Handle) : Callback (Option HeapId) :=
  c.withObjects (c.thread?.bind vm.target?) (c.other?.bind vm.target?)

namespace Agent

/-- What happens in an operation.  References that the caller brings along may be invalid. -/
def occurrence? (a : Agent) : Op → Option (Callback (Option HeapId))
  | .deliver _ c => some (c.withObjects c.thread? c.other?)
  | .callback _ c => some (c.resolved a.vm)
  | _ => none

/-- The location names the position, by the identifier and the kind of the class that declares the
method. -/
def NamesPosition (a : Agent) (method : MethodId) (index : CodeIndex) (location : Location) : Prop :=
  ∃ decl body, a.vm.methods.get? method = some decl ∧
    a.tracker.target? a.vm location.classId = some decl.cls ∧
    a.vm.classAt? decl.cls = some body ∧
    location = ⟨body.kind, location.classId, method, index.toNat⟩

/-- A position is told by what names it, and as it is in every list of frames. -/
structure TellsPosition (a : Agent) (method : MethodId) (index : CodeIndex) (location : Location) :
    Prop where
  named : a.NamesPosition method index location
  listed : ∀ {caller id start length infos thread info frame},
    (Agent.serve caller (.frames id start length) a).1 = .ok (.frames infos) →
    a.tracker.target? a.vm id = some thread → info ∈ infos →
    a.vm.frameAt? thread info.frameId = some frame →
    frame.method = method → frame.location = index → info.location = location

/-- The position of the handler is told if there is one. -/
def TellsHandler (a : Agent) (handler : Option (MethodId × CodeIndex))
    (catchLocation : Option Location) : Prop :=
  Option.Rel (fun position => a.TellsPosition position.1 position.2) handler catchLocation

/-- An object is told by its identifier, with the tag of its class. -/
def TellsObject (a : Agent) (object : HeapId) (tagged : TaggedObjectId) : Prop :=
  a.tracker.target? a.vm tagged.objectId = some object ∧
    ∃ body, a.vm.runtimeClass? object = some body ∧ tagged.tag = .ofClass body.signature

/-- A class is told by its identifier, with its kind. -/
def TellsType (a : Agent) (cls : HeapId) (type : TaggedTypeId) : Prop :=
  a.tracker.target? a.vm type.typeId = some cls ∧
    ∃ body, a.vm.classAt? cls = some body ∧ type.kind = body.kind

/-- A class is told with its name and the low four bits of its status. -/
def TellsClass (a : Agent) (cls : HeapId) (type : TaggedTypeId) (signature : String)
    (status : ClassStatus) : Prop :=
  a.TellsType cls type ∧ ∃ body, a.vm.classAt? cls = some body ∧
    signature = body.signature ∧ status.bits = body.status &&& 0xF

/-- The details of an event tell what happened.  What is told for a class or an exception that the
reference does not stand for is left open. -/
inductive Tells (a : Agent) : Callback (Option HeapId) → EventDetails → Prop where
  | vmDeath : Tells a .vmDeath .vmDeath
  | threadStart {thread id} (hthread : a.tracker.target? a.vm id = thread) :
      Tells a (.threadStart thread) (.threadStart id)
  | threadEnd {thread id} (hthread : a.tracker.target? a.vm id = thread) :
      Tells a (.threadEnd thread) (.threadDeath id)
  | classPrepare {thread id prepared type signature status}
      (hthread : a.tracker.target? a.vm id = thread)
      (hprepared : ∀ cls ∈ prepared, a.TellsClass cls type signature status) :
      Tells a (.classPrepare thread prepared) (.classPrepare id type signature status)
  | breakpoint {thread id method index location} (hthread : a.tracker.target? a.vm id = thread)
      (hposition : a.TellsPosition method index location) :
      Tells a (.breakpoint thread method index) (.breakpoint id location)
  | singleStep {thread id method index location} (hthread : a.tracker.target? a.vm id = thread)
      (hposition : a.TellsPosition method index location) :
      Tells a (.singleStep thread method index) (.step id location)
  | exception {thread id method index location thrown tagged handler catchLocation}
      (hthread : a.tracker.target? a.vm id = thread)
      (hposition : a.TellsPosition method index location)
      (hthrown : ∀ object ∈ thrown, a.TellsObject object tagged)
      (hhandler : a.TellsHandler handler catchLocation) :
      Tells a (.exception thread method index thrown handler)
        (.exception id location tagged catchLocation)
  | methodEntry {thread id method start finish location}
      (hthread : a.tracker.target? a.vm id = thread)
      (hrange : a.vm.methodLocation method = .ok (start, finish))
      (hposition : a.TellsPosition method start location) :
      Tells a (.methodEntry thread method) (.methodEntry id location)
  | methodExit {thread id method index location} (hthread : a.tracker.target? a.vm id = thread)
      (hposition : a.TellsPosition method index location) :
      Tells a (.methodExit thread method index) (.methodExit id location)

end Agent

variable {α β : Type} {a b near last : Agent} {vm : Vm} {h : Handle} {object cls thread : HeapId}
  {method : MethodId} {index : CodeIndex} {location : Location} {id : ObjectId}

/-- The objects of a happening are those that the callback carries references to. -/
theorem resolved_enterCallback (hb : vm.RefsBounded) (happening : Callback HeapId) :
    (vm.enterCallback happening).1.resolved (vm.enterCallback happening).2 =
      happening.withObjects happening.thread? happening.other? := by
  have hfirst : ∀ thread, (vm.newLocal thread).2.target? (vm.newLocal thread).1 = some thread :=
    Vm.target?_newRef vm .localRef
  have hbounded : ∀ thread, (vm.newLocal thread).2.RefsBounded :=
    fun thread => (Vm.ages_newRef vm .localRef thread).bounded hb
  have hkept : ∀ thread other, ((vm.newLocal thread).2.newLocal other).2.target?
      (vm.newLocal thread).1 = some thread :=
    fun thread other => Vm.target?_newRef_of_some (hbounded thread) (hfirst thread) .localRef other
  have hsecond : ∀ thread other, ((vm.newLocal thread).2.newLocal other).2.target?
      ((vm.newLocal thread).2.newLocal other).1 = some other :=
    fun thread other => Vm.target?_newRef (vm.newLocal thread).2 .localRef other
  cases happening with
  | vmDeath => rfl
  | classPrepare thread other | exception thread _ _ other _ =>
      exact congrArg₂ (fun thread other => Callback.withObjects thread other _)
        (hkept thread other) (hsecond thread other)
  | threadStart thread | threadEnd thread | breakpoint thread | singleStep thread
  | methodEntry thread | methodExit thread =>
      exact congrArg (fun thread => Callback.withObjects thread none _) (hfirst thread)

/-- What happens is what the agent is called back for. -/
theorem occurrence?_of_calledBack (hb : a.vm.RefsBounded) {op : Op} {caller : NativeThread}
    {c : Callback Handle} (hcalled : a.calledBack? op = some (near, caller, c)) :
    a.occurrence? op = some (c.resolved near.vm) := by
  cases op with
  | callback =>
      cases hcalled
      rfl
  | deliver native happening =>
      rw [Agent.calledBack?] at hcalled
      dsimp only at hcalled
      split at hcalled
      · cases hcalled
        exact congrArg some (resolved_enterCallback hb happening).symm
      · cases hcalled
  | _ => cases hcalled

/-! ### Positions -/

namespace Command.Thread

theorem mem_of_mem_partOf {entries : List α} {entry : α} {start length : Int}
    (hmem : entry ∈ partOf entries start length) : entry ∈ entries := by
  rw [partOf] at hmem
  split at hmem
  · exact List.mem_of_mem_drop hmem
  · exact List.mem_of_mem_drop (List.mem_of_mem_take hmem)

/-- Each entry of a part of a stack tells the position of the frame that it gives the depth of. -/
theorem told_of_lists {stack : List DebugAgent.Frame} {start length : Int} {infos : List FrameInfo}
    (hlists : List.Forall₂ a.Lists (partOf stack.zipIdx start length) infos) :
    ∀ info ∈ infos, ∃ frame, stack[info.frameId]? = some frame ∧
      a.Locates frame.method frame.location info.location := by
  have hentries : ∀ entry ∈ partOf stack.zipIdx start length, stack[entry.2]? = some entry.1 :=
    fun entry hmem => List.mem_zipIdx_iff_getElem?.mp (mem_of_mem_partOf hmem)
  apply forall_mem_of_forall₂
  exact ((List.forall₂_and_left _ _).mpr ⟨hentries, hlists⟩).imp fun entry info ⟨hframe, hone⟩ =>
    ⟨entry.1, hone.depth ▸ hframe, hone.position⟩

end Command.Thread

theorem Agent.InShape.attached (h : a.InShape) (hattach : a.vm.attachFails = false)
    (caller : NativeThread) : (a.setVm (a.vm.attach caller).2).InShape := by
  have hlooks : Looks Control.Any (Command.attach caller) := .attach trivial caller
  have hattached := h.looks hlooks
  rwa [perform_attach hattach] at hattached

/-- Only the frames of a thread that has not ended are told. -/
theorem Command.Thread.live_of_frames (hshape : a.InShape)
    (hnamed : a.tracker.target? a.vm id = some thread) {start length : Int} {infos : List FrameInfo}
    (hinfos : ((frames id start length).perform a).1 = .ok infos) :
    ∃ body, a.vm.threadAt? thread = some body ∧ ¬ hasAny body.state ThreadState.terminated := by
  have hlive : a.vm.isLiveThread thread = true := by
    by_contra hended
    rw [frames, perform_withThread_ended hshape.refs hnamed (Bool.eq_false_iff.mpr hended)] at hinfos
    cases hinfos
  obtain ⟨body, hbody, hstate⟩ := Option.any_eq_true _ _ |>.mp hlive
  exact ⟨body, hbody, by simpa using hstate⟩

section Listed

variable {caller : NativeThread} {start length : Int} {infos : List FrameInfo} {info : FrameInfo}
  {frame : Frame} (hshape : a.InShape)
  (hinfos : (Agent.serve caller (.frames id start length) a).1 = .ok (.frames infos))
  (hnamed : a.tracker.target? a.vm id = some thread) (hmem : info ∈ infos)
  (hframe : a.vm.frameAt? thread info.frameId = some frame)
include hshape hinfos hnamed hmem hframe

/-- The position of a frame that is in a list is told for good. -/
theorem locates_of_frames :
    let after := (Agent.serve caller (.frames id start length) a).2
    after.Locates frame.method frame.location info.location ∧ Recalls a after ∧
      a.vm.KeepsWorld after.vm := by
  cases hattach : a.vm.attachFails with
  | true =>
      rw [Agent.serve_eq (by simp), answer_of_not_attaching hattach] at hinfos
      cases hinfos
  | false =>
      let near := a.setVm (a.vm.attach caller).2
      have hnear : near.InShape := hshape.attached hattach caller
      have hnamed' : near.tracker.target? near.vm id = some thread :=
        (tracker_target?_attach a caller id).trans hnamed
      rw [Agent.serve_eq_map hattach (by simp) rfl] at hinfos ⊢
      have hread : ((Command.Thread.frames id start length).perform near).1 = .ok infos :=
        (told_eq_ok_iff fun _ _ => Reply.frames.inj).mp hinfos
      obtain ⟨body, hbody, hended⟩ := Command.Thread.live_of_frames hnear hnamed' hread
      have hlooks := @Command.Thread.looks_frames Control.Any id start length
      have hlists := Command.Thread.frames_settles hnear hnamed' hbody hended (Prod.ext hread rfl)
      obtain ⟨found, hfound, hposition⟩ := Command.Thread.told_of_lists hlists info hmem
      have hsame : found = frame := by
        obtain ⟨before, hbefore, hframe⟩ := Vm.frameAt?_eq_some.mp hframe
        cases (threadAt?_attach hbefore caller).symm.trans hbody
        exact Option.some.inj (hfound.symm.trans hframe)
      subst hsame
      exact ⟨hposition, (Recalls.attach a caller).trans (.looks hnear.toInOrder hlooks),
        (Vm.KeepsWorld.attach a.vm caller).trans (hlooks.keepsWorld.perform near)⟩

/-- A list of frames tells a position that has been told already in the same way. -/
theorem Agent.Locates.listed (hlocates : a.Locates method index location)
    (hmethod : frame.method = method) (hindex : frame.location = index) :
    info.location = location := by
  obtain ⟨hposition, hrecalls, hworld⟩ := locates_of_frames hshape hinfos hnamed hmem hframe
  subst hmethod hindex
  exact Except.ok.inj (hposition.told.symm.trans (hlocates.recalls hrecalls hworld).told)

end Listed

/-- What is told of a position is told from then on. -/
theorem Agent.Locates.tells (hlocates : a.Locates method index location) (hs : Sound a)
    (hshape : a.InShape) : a.TellsPosition method index location where
  named := by
    obtain ⟨decl, body, hdecl, hclass, -, rfl⟩ := located_eq_ok.mp hlocates.told
    exact ⟨decl, body, hdecl,
      (hs.designates_of_recognises (hlocates.recognised decl hdecl)).target?, hclass, rfl⟩
  listed := fun hinfos hnamed hmem hframe =>
    hlocates.listed hshape hinfos hnamed hmem hframe

/-! ### What is told from then on -/

/-- References that are valid stay valid. -/
def Vm.Stands (vm vm' : Vm) : Prop :=
  ∀ {h object}, vm.target? h = some object → vm'.target? h = some object

/-- The debugged world has stayed as it was, nobody has been forgotten, and identifiers are good. -/
structure Agent.Upholds (a b : Agent) : Prop where
  recalls : Recalls a b
  world : a.vm.KeepsWorld b.vm
  sound : Sound b
  shape : b.InShape

theorem Agent.Upholds.trans (h : a.Upholds b) (hlast : b.Upholds last) : a.Upholds last :=
  { hlast with
    recalls := h.recalls.trans hlast.recalls
    world := h.world.trans hlast.world }

theorem Agent.Upholds.glances (h : (a.setVm vm).Upholds last) (hshape : a.InShape)
    (hglances : ReflTransGen Vm.Glance a.vm vm) : a.Upholds last :=
  { h with
    recalls := (Recalls.glances hshape.toInOrder hglances).trans h.recalls
    world := (keepsWorld_of_glances hglances).trans h.world }

/-- Where references are valid as in the given machine, the command looks, and what it tells is so
from then on. -/
structure Command.Assures (vm : Vm) (x : Command α) (P : α → Agent → Prop) : Prop where
  looks : Looks Control.Any x
  assures : ∀ {a b last r}, a.InShape → vm.Stands a.vm → x.perform a = (.ok r, b) →
    b.Upholds last → P r last

/-- What has been told before is so as well. -/
theorem Command.Looks.upholds {x : Command α} (hx : Looks Control.Any x) {r : α}
    (hshape : a.InShape) (hperform : x.perform a = (.ok r, b)) (h : b.Upholds last) :
    a.Upholds last := by
  have hrecalls : Recalls a (x.perform a).2 := .looks hshape.toInOrder hx
  have hworld := hx.keepsWorld.perform a
  rw [hperform] at hrecalls hworld
  exact { h with recalls := hrecalls.trans h.recalls, world := hworld.trans h.world }

namespace Command.Assures

variable {P : α → Agent → Prop} {Q : β → Agent → Prop} {x : Command α}

theorem pure {r : α} (h : ∀ last, P r last) : Assures vm (Pure.pure r : Command α) P where
  looks := .pure r
  assures := by
    rintro a b last _ - - hperform -
    cases hperform
    exact h last

theorem bind {f : α → Command β} (hx : Assures vm x P)
    (hf : ∀ r, Assures vm (f r) fun s last => P r last → Q s last) : Assures vm (x >>= f) Q where
  looks := .bind hx.looks fun r => (hf r).looks
  assures := by
    intro a b last s hshape hstands hperform hlast
    obtain ⟨r, near, hone, hrest⟩ := perform_bind_ok hperform
    have hnear := hshape.looks hx.looks
    have hstands' : vm.Stands (x.perform a).2.vm :=
      fun htarget => hx.looks.target? hshape.toOrderly (hstands htarget)
    rw [hone] at hnear hstands'
    have hr := hx.assures hshape hstands hone ((hf r).looks.upholds hnear hrest hlast)
    exact (hf r).assures hnear hstands' hrest hlast hr

/-- A command that tells nothing comes first. -/
theorem after {f : α → Command β} (hx : Looks Control.Any x) (hf : ∀ r, Assures vm (f r) Q) :
    Assures vm (x >>= f) Q :=
  bind (P := fun _ _ => True) ⟨hx, fun _ _ _ _ => trivial⟩ fun r =>
    ⟨(hf r).looks, fun hshape hstands hperform hlast _ =>
      (hf r).assures hshape hstands hperform hlast⟩

theorem map {f : α → β} (hx : Assures vm x fun r => Q (f r)) : Assures vm (f <$> x) Q := by
  rw [map_eq_pure_bind]
  exact hx.bind fun _ => .pure fun _ h => h

/-- Something is asked of the machine that depends on the debugged world only. -/
theorem ask {query : Vm → Except JvmtiError α} {R : α → Vm → Prop}
    (hquery : ∀ {now later r}, vm.Stands now → query now = .ok r → now.KeepsWorld later →
      R r later) : Assures vm (Command.ask query) fun r last => R r last.vm where
  looks := looks_ask query
  assures := by
    intro a b last r _ hstands hperform hlast
    cases hfound : query a.vm with
    | error cause =>
        simp only [Command.ask, perform_inspect, hfound] at hperform
        cases hperform
    | ok found =>
        cases (perform_ask_ok hfound).symm.trans hperform
        exact hquery hstands hfound hlast.world

/-- What is told of each object that there is. -/
theorem each {objects : Option HeapId} {S : HeapId → α → Agent → Prop} (hlooks : Looks Control.Any x)
    (hx : ∀ object ∈ objects, Assures vm x (S object)) :
    Assures vm x fun r last => ∀ object ∈ objects, S object r last where
  looks := hlooks
  assures := fun hshape hstands hperform hlast object hmem =>
    (hx object hmem).assures hshape hstands hperform hlast

/-- The command is one of those that have a reference of their own for the time being. -/
theorem withLocal {r : α} (hx : Assures a.vm x P) (hshape : a.InShape)
    (hperform : (Command.withLocal h x).perform a = (.ok r, b)) (hlast : b.Upholds last) :
    P r last := by
  rw [perform_withLocal] at hperform
  obtain ⟨houtcome, rfl⟩ := Prod.mk.inj hperform
  exact hx.assures hshape (fun htarget => htarget) (Prod.ext houtcome rfl)
    (hlast.glances (hshape.looks hx.looks) (Vm.glance_dropLocal _ _))

/-- What is told of the class that declares a method may rest on that. -/
theorem declaring {f : Handle → Command α} (hf : ∀ {now decl h},
      now.target? h = some decl.cls → Assures now (f h) fun r last =>
        last.vm.methods.get? method = some decl → P r last)
    (hlooks : Looks Control.Any (Positions.withDeclaringClass method f)) :
    Assures vm (Positions.withDeclaringClass method f) P where
  looks := hlooks
  assures := by
    intro a b last r hshape _ hperform hlast
    have hworld := (hlooks.upholds hshape hperform hlast).world
    cases hdecl : a.vm.methods.get? method with
    | none =>
        rw [perform_withDeclaringClass_unknown hdecl] at hperform
        cases hperform
    | some decl =>
        rw [perform_withDeclaringClass hdecl] at hperform
        exact withLocal (hf (Vm.target?_newRef a.vm .localRef decl.cls))
          (hshape.opened (hshape.closed.methods hdecl)) hperform hlast (by rw [hworld.methods, hdecl])

/-- A reference is copied, and if it was valid the copy is. -/
theorem another {f : Handle → Command α} (hf : ∀ {now g},
      (∀ object, vm.target? h = some object → now.target? g = some object) → Assures now (f g) P)
    (hlooks : Looks Control.Any (touch (Vm.newLocalRef h) >>= fun g => Command.withLocal g (f g))) :
    Assures vm (touch (Vm.newLocalRef h) >>= fun g => Command.withLocal g (f g)) P where
  looks := hlooks
  assures := by
    intro a b last r hshape hstands hperform hlast
    cases htarget : a.vm.target? h with
    | none =>
        have hnull : (touch (Vm.newLocalRef h)).perform a = (.ok .null, a) := by
          simp [touch, Vm.newLocalRef, htarget, Agent.setVm]
        rw [perform_bind_of_ok hnull] at hperform
        refine withLocal (hf fun object hobject => ?_) hshape hperform hlast
        rw [hstands hobject] at htarget
        cases htarget
    | some object =>
        have hcopy : (touch (Vm.newLocalRef h)).perform a =
            (.ok (a.vm.newLocal object).1, a.opened object) := by
          simp [touch, Vm.newLocalRef, htarget, Agent.opened, Vm.newLocal]
        rw [perform_bind_of_ok hcopy] at hperform
        refine withLocal (hf fun other hother => ?_)
          (hshape.opened (hshape.closed.target? htarget)) hperform hlast
        have hsame : other = object := Option.some.inj ((hstands hother).symm.trans htarget)
        rw [hsame]
        exact Vm.target?_newRef a.vm .localRef object

end Command.Assures

/-! ### What is captured -/

section Captured

theorem Vm.classAt?_of_classOf {found : ClassBody} (htarget : vm.target? h = some cls)
    (hclass : vm.classOf h = .ok found) : vm.classAt? cls = some found := by
  rw [Vm.classOf, htarget, Option.bind_some] at hclass
  cases hbody : vm.classAt? cls with
  | none =>
      rw [hbody] at hclass
      cases hclass
  | some body =>
      rw [hbody] at hclass
      cases hclass
      rfl

namespace Command.Assures

theorem signature (htarget : vm.target? h = some cls) :
    Assures vm (Command.ask fun vm => vm.classSignature h) fun found last =>
      ∃ body, last.vm.classAt? cls = some body ∧ found.1 = body.signature := by
  refine ask (R := fun (found : String × Option String) later =>
    ∃ body, later.classAt? cls = some body ∧ found.1 = body.signature)
      fun hstands hfound hworld => ?_
  rw [Vm.classSignature] at hfound
  split at hfound
  · rename_i body hclass
    cases hfound
    exact ⟨body, by rw [hworld.classes, Vm.classAt?_of_classOf (hstands htarget) hclass], rfl⟩
  · cases hfound

theorem status (htarget : vm.target? h = some cls) :
    Assures vm (Command.ask fun vm => vm.classStatus h) fun found last =>
      ∃ body, last.vm.classAt? cls = some body ∧ found = body.status := by
  refine ask (R := fun found later => ∃ body, later.classAt? cls = some body ∧
    found = body.status) fun {now _ _} hstands hfound hworld => ?_
  rw [Vm.classStatus] at hfound
  cases hclass : now.classOf h with
  | error cause =>
      rw [hclass] at hfound
      cases hfound
  | ok body =>
      rw [hclass] at hfound
      cases hfound
      exact ⟨body, by rw [hworld.classes, Vm.classAt?_of_classOf (hstands htarget) hclass], rfl⟩

theorem range (method : MethodId) :
    Assures vm (Command.ask fun vm => vm.methodLocation method) fun found last =>
      last.vm.methodLocation method = .ok found := by
  refine ask (R := fun found later => later.methodLocation method = .ok found)
    fun _ hfound hworld => ?_
  rw [← hfound, Vm.methodLocation, Vm.methodLocation, Vm.methodOf, hworld.methods]
  rfl

/-- A class that is tracked is told from then on. -/
theorem trackClass (htarget : vm.target? h = some cls) :
    Assures vm (Tracking.trackClass h) fun type last => last.TellsType cls type where
  looks := looks_trackClass h
  assures := by
    intro a b last type hshape hstands hperform hlast
    have hlive := hshape.closed.target? (hstands htarget)
    have hworld := ((looks_trackClass h).upholds hshape hperform hlast).world
    rw [perform_trackClass (hstands htarget) hlive] at hperform
    cases hclass : a.vm.classAt? cls with
    | none =>
        rw [hclass] at hperform
        cases hperform
    | some body =>
        simp only [hclass] at hperform
        split at hperform
        · cases hperform
          have hknown := hlast.recalls.recognises (recognises_handingOut hshape.ids hlive)
          exact ⟨(hlast.sound.designates_of_recognises hknown).target?, body,
            by rw [hworld.classes, hclass], rfl⟩
        · cases hperform

/-- An object that is tracked is told from then on. -/
theorem trackObject (htarget : vm.target? h = some object) (declared : TypeTag) :
    Assures vm (Tracking.trackObject h declared) fun tagged last => last.TellsObject object tagged where
  looks := looks_trackObject h declared
  assures := by
    intro a b last tagged hshape hstands hperform hlast
    have hendures := ((looks_trackObject h declared).upholds hshape hperform hlast).recalls.endures
    obtain ⟨referred, htrack⟩ :=
      perform_trackObject hshape.closed hshape.refs (hstands htarget) declared
    have hidentified : a.identified object = .ok tagged := by
      have hresult := congrArg Prod.fst htrack
      rw [hperform] at hresult
      exact eq_ok_of_mapError hresult.symm
    have hknown := trackObject_recognises hshape (hstands htarget) declared hidentified
    rw [hperform] at hknown
    obtain ⟨body, hbody, -, rfl⟩ := identified_eq_ok.mp hidentified
    obtain ⟨later, hlater, hsignature⟩ := hendures.runtimeClass? hbody
    exact ⟨(hlast.sound.designates_of_recognises (hlast.recalls.recognises hknown)).target?, later,
      hlater, by rw [hsignature]⟩

/-- A position in a class that is at hand is told from then on. -/
theorem locationIn {decl : MethodDecl} (htarget : vm.target? h = some decl.cls) (method : MethodId)
    (index : CodeIndex) : Assures vm (Positions.locationIn h method index) fun location last =>
      last.vm.methods.get? method = some decl → last.TellsPosition method index location where
  looks := Positions.looks_locationIn h method index
  assures := by
    intro a b last location hshape hstands hperform hlast hdecl
    have hlooks := @Positions.looks_locationIn Control.Any h method index
    rw [(hlooks.upholds hshape hperform hlast).world.methods] at hdecl
    have hlocates := locationIn_settles hshape (hstands htarget) hdecl hperform
    exact (hlocates.recalls hlast.recalls hlast.world).tells hlast.sound hlast.shape

/-- The position of a callback is told from then on. -/
theorem site (method : MethodId) (index : CodeIndex) :
    Assures vm (Capture.site method index) fun spot last =>
      last.TellsPosition method index spot.location := by
  refine declaring (fun htarget => ?_) (Capture.looks_site method index)
  exact (locationIn htarget method index).bind fun location =>
    after (looks_ask _) fun _ => after (looks_see _) fun _ => pure fun _ h => h

theorem noHandler : Assures vm (Pure.pure none) fun spot last =>
    last.TellsHandler none (spot.map Capture.Site.location) :=
  pure fun _ => .none

theorem someHandler (method : MethodId) (index : CodeIndex) :
    Assures vm (some <$> Capture.site method index) fun spot last =>
      last.TellsHandler (some (method, index)) (spot.map Capture.Site.location) := by
  have hsite := @site vm method index
  exact map ⟨hsite.looks, fun hshape hstands hperform hlast =>
    .some (hsite.assures hshape hstands hperform hlast)⟩

/-- What is captured of a callback tells what has happened. -/
theorem capture (wanted : Bool) (c : Callback Handle) :
    Assures vm (Capture.capture wanted c) fun ctx last =>
      last.tracker.target? last.vm ctx.threadId = c.thread?.bind vm.target? →
        last.Tells (c.resolved vm) ctx.details := by
  have hreceiver : ∀ h method, Looks Control.Any (Capture.receiver wanted h method) :=
    Capture.looks_receiver wanted
  cases c with
  | vmDeath => exact pure fun _ _ => .vmDeath
  | threadStart h => exact after (Capture.looks_scene h) fun _ => pure fun _ => .threadStart
  | threadEnd h => exact after (Capture.looks_scene h) fun _ => pure fun _ => .threadEnd
  | classPrepare h prepared =>
      refine after (Capture.looks_scene h) fun _ => another (fun {now g} hcopy => ?_) ?_
      · refine after (looks_requireRef g _) fun _ => ?_
        refine (each (looks_trackClass g) fun cls hmem => trackClass (hcopy cls hmem)).bind fun _ => ?_
        refine (each (looks_ask _) fun cls hmem => signature (hcopy cls hmem)).bind fun _ => ?_
        refine (each (looks_ask _) fun cls hmem => status (hcopy cls hmem)).bind fun _ => ?_
        refine after (looks_see _) fun _ => pure fun last hstatus hsignature htype hthread => ?_
        refine .classPrepare hthread fun cls hmem => ⟨htype cls hmem, ?_⟩
        obtain ⟨body, hbody, hsigned⟩ := hsignature cls hmem
        obtain ⟨same, hsame, hfound⟩ := hstatus cls hmem
        cases hbody.symm.trans hsame
        exact ⟨body, hbody, hsigned, by rw [hfound]; rfl⟩
      · exact looks_owning (.another prepared) fun g => .bind (looks_requireRef g _) fun _ =>
          .bind (looks_trackClass g) fun _ => .bind (looks_ask _) fun _ =>
            .bind (looks_ask _) fun _ => .bind (looks_see _) fun _ => .pure _
  | breakpoint h method index =>
      exact after (Capture.looks_scene h) fun _ => (site method index).bind fun _ =>
        after (hreceiver h method) fun _ => pure fun _ hspot hthread => .breakpoint hthread hspot
  | singleStep h method index =>
      exact after (Capture.looks_scene h) fun _ => (site method index).bind fun _ =>
        after (looks_see _) fun _ => after (looks_see _) fun _ => after (hreceiver h method) fun _ =>
          pure fun _ hspot hthread => .singleStep hthread hspot
  | exception h method index thrown caught =>
      refine after (Capture.looks_scene h) fun _ => (site method index).bind fun _ => ?_
      refine after (Capture.looks_thrownClass thrown) fun _ => ?_
      refine bind (each (looks_trackObject thrown .object) fun object hmem =>
        trackObject hmem .object) fun _ => ?_
      cases caught with
      | none =>
          exact noHandler.bind fun _ => after (hreceiver h method) fun _ =>
            pure fun _ hhandler hthrown hspot hthread => .exception hthread hspot hthrown hhandler
      | some position =>
          exact (someHandler position.1 position.2).bind fun _ => after (hreceiver h method) fun _ =>
            pure fun _ hhandler hthrown hspot hthread => .exception hthread hspot hthrown hhandler
  | methodEntry h method =>
      refine after (Capture.looks_scene h) fun _ => (range method).bind fun found => ?_
      exact (site method found.1).bind fun _ => after (hreceiver h method) fun _ =>
        pure fun _ hspot hrange hthread => .methodEntry hthread hrange hspot
  | methodExit h method index =>
      exact after (Capture.looks_scene h) fun _ => (site method index).bind fun _ =>
        after (hreceiver h method) fun _ => pure fun _ hspot hthread => .methodExit hthread hspot

end Command.Assures

end Captured

/-! ### Events -/

section Events

variable {caller : NativeThread} {c : Callback Handle} {ctx : Context} {seen : Agent} {fired : Fired}

theorem Vm.keepsWorld_spend (vm : Vm) (count : Nat) : vm.KeepsWorld (vm.spend count) :=
  .of_heap_eq rfl rfl rfl rfl

/-- The way of a captured callback through the table makes nobody forget. -/
theorem Passed.upholds (hpassed : Passed seen c.kind.eventKind ctx b) (hs : Sound seen)
    (hseen : seen.InShape) (hb : b.InShape) : seen.Upholds b where
  recalls := .unfolds hseen.toInOrder hs.toHoldsSoundly hpassed.evolves.unfolds
    (Vm.Endures.spanned.passed (fun _ _ => .of_heap_eq rfl rfl) hpassed)
    fun hknows => hknows.of_tracker_eq hpassed.tracker
  world := Vm.KeepsWorld.spanned.passed Vm.keepsWorld_spend hpassed
  sound := hs.unfolds hpassed.evolves.unfolds
  shape := hb

/-- All events of a callback have the details that were captured. -/
theorem details_of_firedIn (hcaptured : a.captured caller c = (.ok ctx, seen))
    (hfired : seen.firedIn? c.kind.eventKind ctx = some fired) :
    fired.events.events ≠ [] ∧ ∀ event ∈ fired.events.events,
      event.kind = c.kind.eventKind ∧ event.details = ctx.details := by
  rw [firedIn?_eq (details_of_vmDeath hcaptured)] at hfired
  split at hfired
  · cases hfired
  · rename_i hsome
    cases hfired
    refine ⟨hsome, fun event hmem => ?_⟩
    obtain ⟨id, -, rfl⟩ := List.mem_map.mp hmem
    exact ⟨rfl, rfl⟩

theorem Callback.kind_resolved (vm : Vm) (c : Callback Handle) : (c.resolved vm).kind = c.kind := by
  cases c <;> rfl

theorem Sound.captured (hs : Sound a) (hcaptured : a.captured caller c = (.ok ctx, seen)) :
    Sound seen := by
  have hevolves := evolves_captured caller c hs.toOrderly
  rw [hcaptured] at hevolves
  exact hs.unfolds hevolves.unfolds

theorem Agent.InShape.captured (h : a.InShape)
    (hcaptured : a.captured caller c = (.ok ctx, seen)) : seen.InShape := by
  have hseen := h.looks (looks_captured (a.wantsReceiver c.kind.eventKind) caller c)
  rwa [show (Command.attach caller *> _).perform a = _ from hcaptured] at hseen

/-- What has been captured tells what has happened as long as nobody is forgotten. -/
theorem tells_of_captured (hs : Sound a) (hshape : a.InShape) (hattach : a.vm.attachFails = false)
    (hcaptured : a.captured caller c = (.ok ctx, seen)) (hlast : seen.Upholds last) :
    last.Tells (c.resolved a.vm) ctx.details := by
  have hstands : a.vm.Stands (a.setVm (a.vm.attach caller).2).vm :=
    fun htarget => (target?_attach a.vm caller _).trans htarget
  refine (Assures.capture _ c).assures (hshape.attached hattach caller) hstands
    (perform_capture_of_captured hcaptured) hlast ?_
  rcases named_captured hs hcaptured with ⟨hzero, hnone⟩ | ⟨thread, hthread, hnamed⟩
  · rw [hzero, hnone, target?_zero hlast.sound.idsBounded]
  · rw [hthread]
    exact hlast.recalls.target? (hs.captured hcaptured).toHoldsSoundly hlast.sound.toHoldsSoundly
      hnamed

/-- What is sent, and the end of the callback, make nobody forget. -/
theorem Agent.Alone.upholds_apply (h : a.Alone) {op : Op} (hnames : a.vm.Has op.objects)
    (hcalled : a.calledBack? op = some (near, caller, c)) (hfired : near.fired? caller c = some fired)
    (hs : Sound (answer caller (Firing.process c) near).2)
    (hshape : (answer caller (Firing.process c) near).2.InShape) :
    (answer caller (Firing.process c) near).2.Upholds (a.apply op) := by
  let b := (answer caller (Firing.process c) near).2
  have hlater := h.apply op hnames
  have hsent : near.onCallback caller c = Delivery.send fired b := by
    rw [Agent.onCallback_eq, hfired]
  have hevolves : Evolves b (Delivery.send fired b) := evolves_send fired hs.toOrderly
  suffices Unfolds b (a.apply op) ∧ b.vm.Endures (a.apply op).vm ∧
      b.vm.KeepsWorld (a.apply op).vm ∧ ∀ {id}, b.Knows id → (a.apply op).Knows id by
    obtain ⟨hunfolds, hendures, hworld, hknows⟩ := this
    exact ⟨.unfolds hshape.toInOrder hs.toHoldsSoundly hunfolds hendures hknows, hworld,
      hlater.sound, hlater.reachable.inShape⟩
  have hendures := Vm.Endures.spanned.send fired b
  have hworld := Vm.KeepsWorld.spanned.send fired b
  cases op with
  | callback =>
      cases hcalled
      rw [Agent.apply, hsent]
      exact ⟨hevolves.unfolds, hendures, hworld, fun hknows => hknows.send fired⟩
  | deliver native happening =>
      cases hdelivers : a.vm.delivers happening with
      | false => simp [Agent.calledBack?, hdelivers] at hcalled
      | true =>
          rw [calledBack?_deliver hdelivers] at hcalled
          cases hcalled
          have hcalledBack := evolves_onCallback caller (a.vm.enterCallback happening).1
            (calledBack h.sound.toOrderly (calledBack?_deliver hdelivers caller)).1
          have hleft := tidyChange_leave happening hcalledBack
          rw [hsent] at hleft
          rw [Agent.apply, Agent.deliver, if_pos hdelivers]
          dsimp only
          rw [hsent]
          exact ⟨Evolves.unfolds (hevolves.tail hleft), hendures.trans (Vm.Endures.spanned.leave _ _ _),
            hworld.trans (.leaveCallback _ _ _),
            fun hknows => (hknows.send fired).of_tracker_eq rfl⟩
  | _ => cases hcalled

theorem Agent.Alone.calledBack (h : a.Alone) {op : Op} (hnames : a.vm.Has op.objects)
    (hcalled : a.calledBack? op = some (near, caller, c)) : Sound near ∧ near.InShape := by
  have hentered := (calledBack?_leaves h.sound.toOrderly hcalled).1
  exact ⟨h.sound.unfolds hentered,
    { toInOrder := h.reachable.inOrder.unfolds hentered
      toIntact := h.reachable.intact.calledBack hnames hcalled }⟩

/-- The details of the events tell what the callback carries. -/
theorem Agent.Alone.tells_of_fired (h : a.Alone) {op : Op} (hnames : a.vm.Has op.objects)
    (hcalled : a.calledBack? op = some (near, caller, c))
    (hfired : near.fired? caller c = some fired) : ∀ event ∈ fired.events.events,
      (answer caller (Firing.process c) near).2.Tells (c.resolved near.vm) event.details ∧
        (a.apply op).Tells (c.resolved near.vm) event.details := by
  let b := (answer caller (Firing.process c) near).2
  obtain ⟨hnear, hshape⟩ := h.calledBack hnames hcalled
  have hprocessed := (answered caller c hnear.toOrderly).evolves hnear.toOrderly
  have hb : b.InShape :=
    { toInOrder := hshape.toInOrder.unfolds hprocessed.unfolds
      toIntact := hshape.toIntact.answer (Firing.safe_process c) caller }
  obtain ⟨ctx, seen, hcaptured, hpassed, hin⟩ := firedIn_of_fired hnear.toOrderly hfired
  have hseen : seen.Upholds b :=
    hpassed.upholds (hnear.captured hcaptured) (hshape.captured hcaptured) hb
  have hattach := attachFails_of_fired hfired
  have hlater := h.upholds_apply hnames hcalled hfired hseen.sound hb
  intro event hmem
  rw [((details_of_firedIn hcaptured hin).2 event hmem).2]
  exact ⟨tells_of_captured hnear hshape hattach hcaptured hseen,
    tells_of_captured hnear hshape hattach hcaptured (hseen.trans hlater)⟩

end Events

/-- The events of a callback tell what has happened, when they are fired and still when the callback is
over, whatever has been given back or become known before.  The identifier of the thread designates
it.  Every position is told by the identifier and the kind of the class that declares the method, by
the method, and by the index, or 0 for a negative one; a list of frames tells the same of a frame
there.  A method is entered where it starts, and there is a position of the handler if and only if
there is a handler.  A thrown object is told by an identifier that designates it with the tag of its
class, and a class that is prepared with its kind, its name and the low four bits of its status. -/
theorem events_tell_what_happened {a : Agent} (h : a.Alone) {op : Op} (hnames : a.vm.Has op.objects)
    {near : Agent} {caller : NativeThread} {c : Callback Handle} {fired : Fired}
    (hcalled : a.calledBack? op = some (near, caller, c))
    (hfired : near.fired? caller c = some fired) :
    ∃ occurrence, a.occurrence? op = some occurrence ∧ fired.events.events ≠ [] ∧
      ∀ event ∈ fired.events.events, event.kind = occurrence.kind.eventKind ∧
        (answer caller (Firing.process c) near).2.Tells occurrence event.details ∧
        (a.apply op).Tells occurrence event.details := by
  have hnear := (h.calledBack hnames hcalled).1
  obtain ⟨ctx, seen, hcaptured, -, hin⟩ := firedIn_of_fired hnear.toOrderly hfired
  obtain ⟨hsome, hevents⟩ := details_of_firedIn hcaptured hin
  refine ⟨c.resolved near.vm, occurrence?_of_calledBack h.sound.refs hcalled, hsome, ?_⟩
  intro event hmem
  refine ⟨?_, h.tells_of_fired hnames hcalled hfired event hmem⟩
  rw [(hevents event hmem).1, Callback.kind_resolved]

/-- A thread, known as object 1, that runs a method of an interface.  The client has given back the
identifier of the interface, and asks for exceptions. -/
def throwing : Agent :=
  (Agent.start Vm.fresh {}).run
    [.setup (.defineClass "LMain;"), .setup (.addMethod 9 { name := "run", signature := "()V" }),
      .setup (.defineInterface "LTask;"),
      .setup (.addMethod 10 { name := "step", signature := "()V" }),
      .setup (.spawnThread "main"), .setup (.newObject 9), .setup (.pushFrame 11 0x1000 5),
      .setup (.pushFrame 11 0x1008 2), .command (.client 0) .allThreads,
      .command (.client 0) (.frames 1 0 (-1)), .release (.client 0) 3,
      .command (.client 0) (.setEvent 4 .none [])]

/-- The interface has got another identifier when an exception in its method is told.  The handler is
at no index of the machine's, and is told at index 0. -/
theorem exception_told : throwing.Alone ∧
    let thrown : Op := .deliver (.client 0) (.exception 11 0x1008 2 12 (some (0x1000, -1)))
    (throwing.apply thrown).Tells (.exception (some 11) 0x1008 2 (some 12) (some (0x1000, -1)))
      (.exception 1 ⟨.interfaceType, 5, 0x1008, 2⟩ ⟨.object, 6⟩ (some ⟨.classType, 4, 0x1000, 0⟩)) := by
  have halone : throwing.Alone := by
    apply Agent.Alone.run (.start {})
    decide +kernel
  refine ⟨halone, ?_⟩
  intro thrown
  let entered := throwing.vm.enterCallback (.exception 11 0x1008 2 12 (some (0x1000, -1)))
  have hnames : throwing.vm.Has thrown.objects := by decide +kernel
  have hcalled : throwing.calledBack? thrown =
      some (throwing.setVm entered.2, .client 0, entered.1) :=
    calledBack?_deliver (by decide +kernel) (.client 0)
  obtain ⟨fired, hfired, hdetails⟩ : ∃ fired,
      (throwing.setVm entered.2).fired? (.client 0) entered.1 = some fired ∧
        fired.events.events.map Event.details = [.exception 1 ⟨.interfaceType, 5, 0x1008, 2⟩
          ⟨.object, 6⟩ (some ⟨.classType, 4, 0x1000, 0⟩)] :=
    Option.map_eq_some_iff.mp (by decide +kernel)
  obtain ⟨occurrence, hoccurs, -, hevents⟩ :=
    events_tell_what_happened halone hnames hcalled hfired
  cases hoccurs
  obtain ⟨event, hmem, htold⟩ : ∃ event ∈ fired.events.events, event.details = _ :=
    List.mem_map.mp (hdetails ▸ List.mem_cons_self)
  rw [← htold]
  exact (hevents event hmem).2.2

end DebugAgent
