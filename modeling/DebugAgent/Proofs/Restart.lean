import DebugAgent.Proofs.Identity

/-!
# A second agent on the same machine

An agent leaves its tags on the objects of the machine.  The next agent counts identifiers from the
beginning and takes a tag for its own as soon as it has handed out the identifier that the tag
spells.  So its identifiers are good in every run if and only if the earlier agent has handed out
none, or the new one is not allowed to tag objects and hands out none either.
-/

namespace DebugAgent

open Tracking

namespace Agent

/-- Tracking a reference to an object hands out an identifier. -/
def HandsOut (a : Agent) (caller : NativeThread) (h : Handle) (id : ObjectId) (object : HeapId) :
    Prop :=
  a.vm.target? h = some object ∧ (Command.answer caller (trackNew h) a).1 = .ok id

/-- An identifier is in use now and after every further operation. -/
def InUse (a : Agent) (id : ObjectId) (ops : List Op) : Prop :=
  ∀ past, past <+: ops → ((a.run past).tracker.global? id).isSome

@[simp] theorem inUse_nil {a : Agent} {id : ObjectId} :
    a.InUse id [] ↔ (a.tracker.global? id).isSome := by
  simp [InUse]

theorem inUse_cons {a : Agent} {id : ObjectId} {op : Op} {ops : List Op} :
    a.InUse id (op :: ops) ↔ (a.tracker.global? id).isSome ∧ (a.apply op).InUse id ops := by
  constructor
  · intro huse
    refine ⟨huse [] List.nil_prefix, fun past hpast => ?_⟩
    exact huse (op :: past) (List.prefix_cons_inj op |>.mpr hpast)
  · rintro ⟨hnow, hrest⟩ past hpast
    rcases List.prefix_cons_iff.mp hpast with rfl | ⟨rest, rfl, hrest'⟩
    · exact hnow
    · exact hrest rest hrest'

/-- Whatever else happens, two identifiers that are handed out and stay in use are the same if and
only if they were handed out for the same object, and each of them designates its object. -/
def KeepsIdentity (a : Agent) : Prop :=
  ∀ first between after caller caller' h h' id id' object object',
    let b := a.run first
    let tracked := b.apply (.trackNew caller h)
    let c := tracked.run between
    let d := c.apply (.trackNew caller' h')
    let e := d.run after
    b.HandsOut caller h id object → c.HandsOut caller' h' id' object' →
      tracked.InUse id (between ++ .trackNew caller' h' :: after) → d.InUse id' after →
        (id = id' ↔ object = object') ∧ e.tracker.target? e.vm id = some object ∧
          e.tracker.target? e.vm id' = some object'

/-- From one state to the next, tracking a reference to an object hands out an identifier. -/
def Tracks (a : Agent) (h : Handle) (id : ObjectId) (object : HeapId) (b : Agent) : Prop :=
  a.vm.target? h = some object ∧ (trackNew h).perform a = (.ok id, b)

/-- The same at every moment, also in the middle of an operation, where commands and callbacks hand
out their identifiers. -/
def KeepsIdentityThroughout (a : Agent) : Prop :=
  ∀ b tracked c d e h h' id id' object object',
    Unfolds a b → b.Tracks h id object tracked → Unfolds tracked c →
      c.Tracks h' id' object' d → Unfolds d e →
        (e.tracker.global? id).isSome → (e.tracker.global? id').isSome →
          (id = id' ↔ object = object') ∧ e.tracker.target? e.vm id = some object ∧
            e.tracker.target? e.vm id' = some object'

theorem KeepsIdentity.run {a : Agent} (hk : a.KeepsIdentity) (ops : List Op) :
    (a.run ops).KeepsIdentity := by
  intro first between after caller caller' h h' id id' object object'
  have hfrom := hk (ops ++ first) between after caller caller' h h' id id' object object'
  rwa [run_append] at hfrom

end Agent

/-! ### Handing out -/

theorem Tracker.isSome_global? {t : Tracker} {id : ObjectId} {entry : Tracked}
    (hentry : t.entries.get? id = some entry) : (t.global? id).isSome := by
  simp [global?, hentry]

section HandsOut

variable {a b : Agent} {caller : NativeThread} {h : Handle} {id : ObjectId} {object : HeapId}

/-- Tracking for a native thread that is attached first. -/
theorem answer_trackNew (hfails : a.vm.attachFails = false)
    (hperform : (trackNew h).perform (a.setVm (a.vm.attach caller).2) = (.ok id, b)) :
    (Command.answer caller (trackNew h) a).1 = .ok id ∧ a.apply (.trackNew caller h) = b := by
  have hboth : (Command.attach caller *> trackNew h).perform a = (.ok id, b) := by
    rw [seqRight_eq_bind, Action.perform_bind, perform_attach hfails]
    exact hperform
  constructor
  · simp [Command.answer, hboth]
  · simp [Agent.apply, Command.answer, hboth]

namespace Agent.HandsOut

/-- An identifier is handed out by tracking, once the native thread is attached. -/
theorem perform_trackNew (hh : a.HandsOut caller h id object) :
    (trackNew h).perform (a.setVm (a.vm.attach caller).2) =
      (.ok id, a.apply (.trackNew caller h)) := by
  obtain ⟨-, hanswer⟩ := hh
  cases hfails : a.vm.attachFails with
  | true =>
      have hrefused : (Command.attach caller *> trackNew h).perform a =
          (.error (.refused .internal), a) := by
        rw [seqRight_eq_bind, Action.perform_bind]
        simp [Command.attach, Action.perform_bind, Command.see, hfails]
      simp [Command.answer, hrefused] at hanswer
  | false =>
      cases hperform : (trackNew h).perform (a.setVm (a.vm.attach caller).2) with
      | mk result b =>
          cases result with
          | ok other =>
              obtain ⟨hother, happly⟩ := answer_trackNew hfails hperform
              rw [happly, Except.ok.inj (hother.symm.trans hanswer)]
          | error stop =>
              have hboth : (Command.attach caller *> trackNew h).perform a = (.error stop, b) := by
                rw [seqRight_eq_bind, Action.perform_bind, perform_attach hfails]
                exact hperform
              cases stop <;> simp [Command.answer, hboth] at hanswer

/-- The native thread is attached, and then the reference is tracked. -/
theorem tracks (hh : a.HandsOut caller h id object) :
    Unfolds a (a.setVm (a.vm.attach caller).2) ∧
      (a.setVm (a.vm.attach caller).2).Tracks h id object (a.apply (.trackNew caller h)) := by
  have hattached : Change a (a.setVm (a.vm.attach caller).2) :=
    .machine (Vm.frame_attach caller).keeps
  refine ⟨.single (.inl hattached), ?_, hh.perform_trackNew⟩
  exact (target?_attach _ _ _).trans hh.1

end Agent.HandsOut

namespace Agent.Tracks

theorem unfolds (ho : Orderly a) (ht : a.Tracks h id object b) : Unfolds a b := by
  have hevolves := (Command.Looks.trackNew h).evolves ho
  rw [ht.2] at hevolves
  exact hevolves.unfolds

/-- Identifiers are handed out only if tagging is granted, and only for objects that have a tag. -/
theorem granted (ht : a.Tracks h id object b) :
    a.vm.grants Capabilities.canTagObjects ∧ ∃ tag, a.vm.tagAt? object = some tag := by
  obtain ⟨htarget, hperform⟩ := ht
  rcases Vm.getTag_cases a.vm h with ⟨stop, hstop⟩ | ⟨found, tag, hgrant, hfound, htag⟩
  · have hnull := Vm.isNull_eq_false_of_target htarget
    cases stop with
    | refused cause =>
        simp [trackNew, hnull, Action.perform_bind, Command.perform_call_refused hstop] at hperform
    | broken =>
        simp [trackNew, hnull, Action.perform_bind, Command.perform_call_broken hstop] at hperform
  · cases hfound.symm.trans htarget
    exact ⟨hgrant, tag, htag⟩

end Agent.Tracks

/-- What is kept at every moment is kept from operation to operation. -/
theorem Agent.KeepsIdentityThroughout.keepsIdentity (ho : Orderly a)
    (hk : a.KeepsIdentityThroughout) : a.KeepsIdentity := by
  intro first between after caller caller' h h' id id' object object' b tracked c d e
    hfirst hsecond huse huse'
  have htracked : Orderly tracked := (ho.run first).run [.trackNew caller h]
  have hd : Orderly d := (htracked.run between).run [.trackNew caller' h']
  have hrun : e = tracked.run (between ++ .trackNew caller' h' :: after) :=
    (Agent.run_append tracked between (.trackNew caller' h' :: after)).symm
  obtain ⟨hattached, htracks⟩ := hfirst.tracks
  obtain ⟨hattached', htracks'⟩ := hsecond.tracks
  apply hk _ tracked _ d e h h' id id' object object'
  · exact (unfolds_run ho first).trans hattached
  · exact htracks
  · exact (unfolds_run htracked between).trans hattached'
  · exact htracks'
  · exact unfolds_run hd after
  · rw [hrun]
    exact huse _ List.prefix_rfl
  · exact huse' _ List.prefix_rfl

/-! ### Good identifiers -/

/-- In a sound state an identifier is handed out for the object that it designates. -/
theorem Sound.target?_of_tracks (hs : Sound a) (ht : a.Tracks h id object b) :
    b.tracker.target? b.vm id = some object := by
  obtain ⟨hgrant, tag, htag⟩ := ht.granted
  have hlive : object < a.vm.heap.size := by
    obtain ⟨target, hobject, -⟩ := Option.map_eq_some_iff.mp htag
    exact (Array.getElem?_eq_some_iff.mp hobject).1
  obtain ⟨other, c, hperform, ⟨global, hresolve, hheld⟩, -⟩ := hs.trackNew hgrant ht.1 hlive
  obtain ⟨hid, rfl⟩ := Prod.mk.inj (hperform.symm.trans ht.2)
  cases hid
  have hglobal : c.tracker.global? id = some global := by
    rw [resolve] at hresolve
    split at hresolve
    · cases hresolve
      assumption
    · cases hresolve
  exact Option.bind_eq_some_iff.mpr ⟨global, hglobal, hheld.target?⟩

/-- As long as an identifier stays in use it designates the same object. -/
theorem Sound.target?_of_inUse (hs : Sound a) (htarget : a.tracker.target? a.vm id = some object)
    (hlater : Unfolds a b) (huse : (b.tracker.global? id).isSome) :
    b.tracker.target? b.vm id = some object := by
  have hb : Sound b := hs.unfolds hlater
  obtain ⟨global, hglobal⟩ := Option.isSome_iff_exists.mp huse
  obtain ⟨found, hfound⟩ := hb.valid (x := .identifier id) hglobal
  have htarget' := hb.target?_eq_some.mpr ⟨global, hglobal, hfound⟩
  obtain ⟨before, hbefore, -⟩ := hs.target?_eq_some.mp htarget
  obtain ⟨entry, hentry, -⟩ := Option.map_eq_some_iff.mp hbefore
  have hsame := (hs.designated_before hlater).2 (hs.inUse hentry).2.1 htarget'
  rw [htarget', ← hsame, htarget]

theorem Sound.keepsIdentityThroughout (hs : Sound a) : a.KeepsIdentityThroughout := by
  intro b tracked c d e h h' id id' object object' hb hfirst hc hsecond he huse huse'
  have hsb : Sound b := hs.unfolds hb
  have hstracked : Sound tracked := hsb.unfolds (hfirst.unfolds hsb.toOrderly)
  have hsc : Sound c := hstracked.unfolds hc
  have hd : Unfolds c d := hsecond.unfolds hsc.toOrderly
  have hsd : Sound d := hsc.unfolds hd
  have hid : e.tracker.target? e.vm id = some object :=
    hstracked.target?_of_inUse (hsb.target?_of_tracks hfirst) (hc.trans (hd.trans he)) huse
  have hid' : e.tracker.target? e.vm id' = some object' :=
    hsd.target?_of_inUse (hsc.target?_of_tracks hsecond) he huse'
  refine ⟨⟨?_, ?_⟩, hid, hid'⟩
  · rintro rfl
    exact Option.some.inj (hid.symm.trans hid')
  · rintro rfl
    exact (hsd.unfolds he).eq_of_target? hid hid'

end HandsOut

/-! ### Capabilities -/

section Granted

variable {a b : Agent}

theorem Change.capabilities (h : Change a b) : b.vm.capabilities = a.vm.capabilities := by
  cases h with
  | machine hkeeps => exact hkeeps.capabilities
  | recount | enrol | advance | session => rfl
  | @forget id entry hentry => exact (Vm.steady_deleteRef a.vm .globalRef entry.global).capabilities
  | remove hmem hreleases hdisables =>
      obtain ⟨set, counts, rfl⟩ := hreleases.eq
      obtain ⟨thread, enabled, held, rfl⟩ := hdisables.eq
      exact (Registration.steady_freed thread _).capabilities

theorem Engagement.capabilities (h : Engagement a b) : b.vm.capabilities = a.vm.capabilities := by
  cases h with
  | request hneeded hholds henables =>
      obtain ⟨set, counts, rfl⟩ := hholds.eq
      obtain ⟨vm, enabled, held, hkeeps, rfl⟩ := henables.eq
      exact hkeeps.capabilities
  | session hnone henables =>
      obtain ⟨vm, enabled, held, hkeeps, rfl⟩ := henables.eq
      exact hkeeps.capabilities

/-- No operation grants a capability. -/
theorem Unfolds.capabilities (ho : Orderly a) (h : Unfolds a b) :
    b.vm.capabilities = a.vm.capabilities :=
  (unfolds_invariant (P := fun c => c.vm.capabilities = a.vm.capabilities)
    (fun _ _ _ h hb => h.capabilities.trans hb) (fun _ _ _ h hb => h.capabilities.trans hb)
    ho rfl h).2

/-- An agent that may not tag objects hands out no identifier. -/
theorem keepsIdentityThroughout_of_not_granted (ho : Orderly a)
    (hgrant : ¬ a.vm.grants Capabilities.canTagObjects) : a.KeepsIdentityThroughout := by
  intro b tracked c d e h h' id id' object object' hb hfirst
  have hgranted := hfirst.granted.1
  rw [Vm.grants] at hgranted hgrant
  rw [Unfolds.capabilities ho hb] at hgranted
  exact absurd hgranted hgrant

end Granted

/-! ### Tags left over -/

/-- An object has a tag, and identifiers can be handed out one after another. -/
structure Stale (a : Agent) (object : HeapId) (tag : Int) : Prop where
  attaches : a.vm.attachFails = false
  grants : a.vm.grants Capabilities.canTagObjects
  tagged : a.vm.tagAt? object = some tag
  unused : ∀ id, a.tracker.nextId ≤ id → a.tracker.entries.get? id = none

namespace Stale

variable {a b : Agent} {object other : HeapId} {tag : Int} {h : Handle} {caller : NativeThread}

theorem of_steady (hs : Stale a object tag) (hsteady : a.vm.Steady b.vm)
    (hfails : b.vm.attachFails = a.vm.attachFails) (htracker : b.tracker = a.tracker) :
    Stale b object tag where
  attaches := hfails.trans hs.attaches
  grants := by
    have hgrant := hs.grants
    rw [Vm.grants] at hgrant ⊢
    rwa [hsteady.capabilities]
  tagged := hsteady.tagged hs.tagged
  unused := htracker ▸ hs.unused

/-- A reference to an object can be taken at any time. -/
theorem takeRef (hs : Stale a object tag) (other : HeapId) :
    let b := a.apply (.setup (.takeRef other))
    Stale b object tag ∧ b.tracker = a.tracker ∧ b.vm.target? ⟨a.vm.lastRef + 8⟩ = some other := by
  intro b
  have hsteady : a.vm.Steady b.vm := ⟨rfl, rfl, rfl, id, .inr, id, id⟩
  exact ⟨hs.of_steady hsteady rfl rfl, rfl, Vm.target?_newRef a.vm .localRef other⟩

/-- There are always objects without a tag, and references to them. -/
theorem supply (hs : Stale a object tag) :
    let b := a.run [.setup (.newString ""), .setup (.takeRef a.vm.heap.size)]
    Stale b object tag ∧ b.tracker = a.tracker ∧ a.vm.heap.size ≠ object ∧
      b.vm.target? ⟨a.vm.lastRef + 8⟩ = some a.vm.heap.size ∧
        b.vm.tagAt? a.vm.heap.size = some 0 := by
  intro b
  let string := a.apply (.setup (.newString ""))
  have hframe : a.vm.Frame string.vm := Vm.frame_allocate _ _
  have hstring : Stale string object tag := hs.of_steady hframe.toSteady rfl rfl
  obtain ⟨hstale, htracker, htarget⟩ := hstring.takeRef a.vm.heap.size
  refine ⟨hstale, htracker, fun heq => ?_, htarget, ?_⟩
  · have htag := hs.tagged
    simp [Vm.tagAt?, ← heq] at htag
  · show (a.vm.allocate Vm.stringClass (.text "")).2.tagAt? a.vm.heap.size = some 0
    simp [Vm.tagAt?, Vm.heap_allocate]

/-- An object without a tag gets the next identifier. -/
theorem track (hs : Stale a object tag) (htarget : a.vm.target? h = some other)
    (hother : a.vm.tagAt? other = some 0) (hne : other ≠ object) (caller : NativeThread) :
    let b := a.apply (.trackNew caller h)
    a.HandsOut caller h a.tracker.nextId other ∧ Stale b object tag ∧
      b.tracker.nextId = a.tracker.nextId + 1 ∧
        ∃ entry, b.tracker.entries.get? a.tracker.nextId = some entry := by
  intro b
  let attached := a.setVm (a.vm.attach caller).2
  have hsteady : a.vm.Steady attached.vm := (Vm.frame_attach caller).toSteady
  have hfails : attached.vm.attachFails = a.vm.attachFails := attachFails_attach _ _
  have hperform := perform_trackNew_new (a := attached) ((grants_attach _ _ _).trans hs.grants)
    ((target?_attach _ _ _).trans htarget) (hsteady.tagged hother) fun hpos => absurd hpos (by simp)
  obtain ⟨hanswer, hb⟩ : _ ∧ b = attached.enrol other := answer_trackNew hs.attaches hperform
  have hentries : b.tracker = attached.tracker.add ⟨attached.vm.lastRef + 8⟩ := by
    rw [hb]
    rfl
  refine ⟨⟨htarget, hanswer⟩, ⟨?_, ?_, ?_, ?_⟩, by rw [hentries]; rfl, ?_⟩
  · rw [hb]
    exact hfails.trans hs.attaches
  · rw [hb]
    exact (grants_attach _ _ _).trans hs.grants
  · have htag := Vm.tagAt?_setTagAt attached.vm other attached.tracker.nextId object
    rw [if_neg hne, hsteady.tagged hs.tagged] at htag
    rw [hb]
    exact htag
  · intro id hle
    have hnext : a.tracker.nextId + 1 ≤ id := by
      rw [hentries] at hle
      exact hle
    rw [hentries]
    refine (Table.get?_insert_of_ne ?_).trans (hs.unused id (Nat.le_of_succ_le hnext))
    exact Nat.ne_of_gt hnext
  · rw [hentries]
    exact ⟨_, Table.get?_insert_self _ _ _⟩

/-- Any number of identifiers can be handed out. -/
theorem advance (hs : Stale a object tag) (count : Nat) :
    ∃ ops, Stale (a.run ops) object tag ∧
      (a.run ops).tracker.nextId = a.tracker.nextId + count := by
  induction count with
  | zero => exact ⟨[], hs, rfl⟩
  | succ count ih =>
      obtain ⟨ops, hstale, hnext⟩ := ih
      obtain ⟨hsupplied, htracker, hne, htarget, htag⟩ := hstale.supply
      obtain ⟨-, htracked, hnext', -⟩ := hsupplied.track htarget htag hne (.client 0)
      refine ⟨ops ++ [.setup (.newString ""), .setup (.takeRef (a.run ops).vm.heap.size),
        .trackNew (.client 0) ⟨(a.run ops).vm.lastRef + 8⟩], ?_, ?_⟩
      · rw [Agent.run_append]
        exact htracked
      · rw [Agent.run_append]
        calc
          _ = _ + 1 := hnext'
          _ = (a.run ops).tracker.nextId + 1 := by rw [htracker]
          _ = a.tracker.nextId + count + 1 := by rw [hnext]

/-- An object whose tag spells an identifier in use is taken for the object of the identifier. -/
theorem mistake (hs : Stale a object tag) {id : ObjectId} (hid : tag = id) (hpos : 0 < id)
    {entry : Tracked} (hentry : a.tracker.entries.get? id = some entry)
    (htarget : a.vm.target? h = some object) (caller : NativeThread) :
    a.HandsOut caller h id object ∧
      ((a.apply (.trackNew caller h)).tracker.global? id).isSome := by
  let attached := a.setVm (a.vm.attach caller).2
  have hsteady : a.vm.Steady attached.vm := (Vm.frame_attach caller).toSteady
  have hperform := perform_trackNew_known (a := attached) ((grants_attach _ _ _).trans hs.grants)
    ((target?_attach _ _ _).trans htarget) (hid ▸ hsteady.tagged hs.tagged) hpos hentry
  obtain ⟨hanswer, hb⟩ := answer_trackNew hs.attaches hperform
  refine ⟨⟨htarget, hanswer⟩, ?_⟩
  rw [hb]
  simp [Tracker.global?, Tracker.setReferences]

/-- When the identifier that the tag spells is next, another object gets it, and then the object
with the tag gets it too. -/
theorem not_keepsIdentity {id : ObjectId} (hs : Stale a object id) (hnext : a.tracker.nextId = id)
    (hpos : 0 < id) : ¬ a.KeepsIdentity := by
  intro hkeeps
  let supply : List Op := [.setup (.newString ""), .setup (.takeRef a.vm.heap.size)]
  obtain ⟨hsupplied, htracker, hne, htarget, hzero⟩ := hs.supply
  have hspelled : (a.run supply).tracker.nextId = id := (congrArg _ htracker).trans hnext
  obtain ⟨hfirst, htracked, -, entry, hentry⟩ := hsupplied.track htarget hzero hne (.client 0)
  rw [hspelled] at hfirst hentry
  have hentered := Tracker.isSome_global? hentry
  obtain ⟨hsecond, hsame, hreference⟩ := htracked.takeRef object
  rw [← hsame] at hentry
  obtain ⟨hagain, huse⟩ := hsecond.mistake rfl hpos hentry hreference (.client 0)
  have hinUse := Agent.inUse_cons.mpr ⟨hentered, Agent.inUse_cons.mpr
    ⟨Tracker.isSome_global? hentry, Agent.inUse_nil.mpr huse⟩⟩
  obtain ⟨hiff, -⟩ := hkeeps supply [.setup (.takeRef object)] [] _ _ _ _ id id _ object hfirst
    hagain hinUse (Agent.inUse_nil.mpr huse)
  exact hne (hiff.mp rfl)

end Stale

section Restart

variable {vm : Vm} {config : Config}

/-- A positive tag left over is the undoing of a new agent that may tag objects. -/
theorem not_keepsIdentity_of_tag (hgrant : config.capabilities.canTagObjects) {object : HeapId}
    {tag : Int} (htag : vm.tagAt? object = some tag) (hpos : 0 < tag) :
    ¬ (Agent.start vm config).KeepsIdentity := by
  intro hkeeps
  obtain ⟨id, rfl⟩ := Int.eq_ofNat_of_zero_le (Int.le_of_lt hpos)
  have hid : 0 < id := Int.natCast_pos.mp hpos
  -- all identifiers below the one that the tag spells are handed out
  let start := (Agent.start vm config).run [.setup (.setAttachFails false)]
  have hstart : Stale start object id := ⟨rfl, hgrant, htag, fun _ _ => rfl⟩
  obtain ⟨ops, hstale, hnext⟩ := hstart.advance (id - 1)
  have hspelled : (start.run ops).tracker.nextId = id := by
    have hone : start.tracker.nextId = 1 := rfl
    rw [hnext, hone]
    exact Nat.add_sub_cancel' hid
  exact hstale.not_keepsIdentity hspelled hid ((hkeeps.run _).run ops)

/-- A new agent may not tag objects, or no object of the machine has a positive tag. -/
def NoTagTaken (vm : Vm) (config : Config) : Prop :=
  config.capabilities.canTagObjects = false ∨ ∀ object tag, vm.tagAt? object = some tag → tag < 1

theorem noTagTaken_of_keepsIdentity (hk : (Agent.start vm config).KeepsIdentity) :
    NoTagTaken vm config := by
  by_cases hgrant : config.capabilities.canTagObjects
  · refine .inr fun object tag htag => Int.not_le.mp fun hpos => ?_
    exact not_keepsIdentity_of_tag hgrant htag hpos hk
  · exact .inl (Bool.eq_false_iff.mpr hgrant)

theorem NoTagTaken.keepsIdentityThroughout (hn : NoTagTaken vm config) (hb : vm.RefsBounded) :
    (Agent.start vm config).KeepsIdentityThroughout := by
  rcases hn with hgrant | htags
  · apply keepsIdentityThroughout_of_not_granted (orderly_start hb config)
    simp [Agent.start, Vm.addCapabilities, Vm.grants, hgrant]
  · exact (sound_start hb (fun htag => htags _ _ htag) config).keepsIdentityThroughout

/-- A new agent keeps identity in every run if and only if no tag on the machine can be taken for
one of its own. -/
theorem keepsIdentity_start_iff (hb : vm.RefsBounded) :
    (Agent.start vm config).KeepsIdentity ↔ NoTagTaken vm config := by
  refine ⟨noTagTaken_of_keepsIdentity, fun hn => ?_⟩
  exact (hn.keepsIdentityThroughout hb).keepsIdentity (orderly_start hb config)

end Restart

/-! ### What an agent leaves behind -/

/-- The identifier handed out last is the tag of some object. -/
def LastTagged (a : Agent) : Prop :=
  1 < a.tracker.nextId → ∃ id object, a.tracker.nextId = id + 1 ∧ a.vm.tagAt? object = some ↑id

section LastTagged

variable {a b : Agent}

theorem LastTagged.quiet (hl : LastTagged a) (hq : Quiet a b) : LastTagged b := by
  rw [LastTagged]
  rw [hq.nextId]
  intro hlt
  obtain ⟨id, object, hid, htag⟩ := hl hlt
  exact ⟨id, object, hid, hq.tagged htag⟩

theorem LastTagged.change (hs : Sound a) (hl : LastTagged a) (h : Change a b) : LastTagged b := by
  rcases h.quiet_or_enrol hs.toHoldsSoundly with hquiet | ⟨object, tag, htag, -, rfl⟩
  · exact hl.quiet hquiet
  · have hlast := Vm.tagAt?_setTagAt a.vm object a.tracker.nextId object
    rw [if_pos rfl, htag] at hlast
    exact fun _ => ⟨a.tracker.nextId, object, rfl, hlast⟩

theorem lastTagged_reached (steps : List Vm.Setup) (config : Config) (ops : List Op) :
    LastTagged (Agent.reached steps config ops) :=
  have hs := sound_reached steps config []
  (hs.invariant (fun hs h hl => hl.change hs h) (fun _ h hl => hl.quiet h.quiet)
    (fun hlt => absurd hlt (Nat.lt_irrefl 1)) (unfolds_run hs.toOrderly ops)).2

end LastTagged

theorem noTagTaken_iff (steps : List Vm.Setup) (config : Config) (ops : List Op) (next : Config) :
    let a := Agent.reached steps config ops
    NoTagTaken a.vm next ↔ a.tracker.nextId = 1 ∨ next.capabilities.canTagObjects = false := by
  intro a
  have hs : Sound a := sound_reached steps config ops
  rw [NoTagTaken, or_comm]
  refine or_congr_left ⟨fun htags => ?_, fun hone object tag htag => ?_⟩
  · by_cases hlt : 1 < a.tracker.nextId
    · obtain ⟨id, object, hid, htag⟩ := lastTagged_reached steps config ops hlt
      have hless := htags object _ htag
      have hnext : a.tracker.nextId = id + 1 := hid
      grind
    · have hpos := hs.nextId_pos
      grind
  · have hless := hs.tag_lt htag
    rw [hone] at hless
    exact hless

/-- A second agent that is started on the machine of a first one keeps identity in every run if and
only if the first one has handed out no identifier, or the second one may not tag objects.  In these
cases it keeps identity at every moment, and otherwise not even from operation to operation. -/
theorem restart_keepsIdentity_iff (steps : List Vm.Setup) (config : Config) (ops : List Op)
    (next : Config) :
    let a := Agent.reached steps config ops
    let harmless := a.tracker.nextId = 1 ∨ next.capabilities.canTagObjects = false
    ((Agent.start a.vm next).KeepsIdentity ↔ harmless) ∧
      ((Agent.start a.vm next).KeepsIdentityThroughout ↔ harmless) := by
  intro a harmless
  have hrefs : a.vm.RefsBounded := (orderly_reached steps config ops).refs
  have hiff : NoTagTaken a.vm next ↔ harmless := noTagTaken_iff steps config ops next
  have hkeeps : (Agent.start a.vm next).KeepsIdentity ↔ harmless :=
    (keepsIdentity_start_iff hrefs).trans hiff
  refine ⟨hkeeps, fun hk => ?_, fun hharmless => ?_⟩
  · exact hkeeps.mp (hk.keepsIdentity (orderly_start hrefs next))
  · exact (hiff.mpr hharmless).keepsIdentityThroughout hrefs

/-- The first agent has tagged a thread with 1, and the second one hands out 1 for a thread group
before it is shown the thread. -/
theorem identity_lost_by_restart :
    ¬ (Agent.start (Agent.reached [.spawnThread "main"] {}
      [.command (.client 0) .allThreads]).vm {}).KeepsIdentity := by
  intro hkeeps
  obtain ⟨hiff, -⟩ := hkeeps [.setup (.takeRef Vm.systemGroup)] [.setup (.takeRef 9)] []
    (.client 0) (.client 0) ⟨4128⟩ ⟨4144⟩ 1 1 Vm.systemGroup 9 ⟨rfl, rfl⟩ ⟨rfl, rfl⟩
    (Agent.inUse_cons.mpr ⟨rfl, Agent.inUse_cons.mpr ⟨rfl, Agent.inUse_nil.mpr rfl⟩⟩)
    (Agent.inUse_nil.mpr rfl)
  cases hiff.mp rfl

end DebugAgent
