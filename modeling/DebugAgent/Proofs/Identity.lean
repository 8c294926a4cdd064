import DebugAgent.Proofs.Holding

/-!
# Identifiers and objects

An object that the client knows carries its identifier as its tag, and the identifier leads back to
the object through a global reference.  Tags outlive identifiers: an object whose identifier was
given back keeps the old tag.  Since identifiers are handed out in increasing order, an old tag is
never that of another object, so the tag of an object is the identifier of this object or of none.
-/

namespace DebugAgent

open Registration Tracking

/-- Tags and identifiers in use agree. -/
structure Tagged (a : Agent) : Prop where
  nextId_pos : 0 < a.tracker.nextId
  inUse : ∀ {id entry}, a.tracker.entries.get? id = some entry →
    1 ≤ id ∧ id < a.tracker.nextId ∧ 1 ≤ entry.references
  tag_lt : ∀ {object tag}, a.vm.tagAt? object = some tag → tag < a.tracker.nextId
  carries : ∀ {id global object}, a.tracker.global? id = some global →
    a.vm.HoldsGlobal global object → a.vm.tagAt? object = some ↑id
  designates : ∀ {id global object}, a.tracker.global? id = some global →
    a.vm.tagAt? object = some ↑id → a.vm.HoldsGlobal global object

/-- A change by which no object becomes known: identifiers in use designate what they did. -/
structure Quiet (a b : Agent) : Prop where
  nextId : b.tracker.nextId = a.tracker.nextId
  entries : ∀ {id entry}, b.tracker.entries.get? id = some entry →
    ∃ before, a.tracker.entries.get? id = some before ∧ before.global = entry.global ∧
      (1 ≤ before.references → 1 ≤ entry.references)
  tagged : ∀ {object tag}, a.vm.tagAt? object = some tag → b.vm.tagAt? object = some tag
  untagged : ∀ {object tag}, b.vm.tagAt? object = some tag →
    tag = 0 ∨ a.vm.tagAt? object = some tag
  globals : ∀ {id global object}, b.tracker.global? id = some global →
    a.vm.HoldsGlobal global object → b.vm.HoldsGlobal global object

namespace Quiet

variable {a b : Agent}

/-- The table of identifiers stays as it is. -/
theorem of_tracker_eq (htracker : b.tracker = a.tracker)
    (htagged : ∀ {object tag}, a.vm.tagAt? object = some tag → b.vm.tagAt? object = some tag)
    (huntagged : ∀ {object tag}, b.vm.tagAt? object = some tag →
      tag = 0 ∨ a.vm.tagAt? object = some tag)
    (hglobals : ∀ {id global object}, a.tracker.global? id = some global →
      a.vm.HoldsGlobal global object → b.vm.HoldsGlobal global object) : Quiet a b where
  nextId := by rw [htracker]
  entries := fun hentry => ⟨_, htracker ▸ hentry, rfl, id⟩
  tagged := htagged
  untagged := huntagged
  globals := fun hid => hglobals (htracker ▸ hid)

theorem global? (hq : Quiet a b) {id : ObjectId} {global : Handle}
    (hid : b.tracker.global? id = some global) : a.tracker.global? id = some global := by
  obtain ⟨entry, hentry, rfl⟩ := Option.map_eq_some_iff.mp hid
  obtain ⟨before, hbefore, hsame, -⟩ := hq.entries hentry
  simp [Tracker.global?, hbefore, hsame]

end Quiet

namespace Tagged

variable {a b : Agent}

theorem quiet (ht : Tagged a) (hs : HoldsSoundly a) (hq : Quiet a b) : Tagged b := by
  have hpos := ht.nextId_pos
  constructor
  · rw [hq.nextId]
    exact hpos
  · intro id entry hentry
    obtain ⟨before, hbefore, -, hcount⟩ := hq.entries hentry
    obtain ⟨hid, hlt, hreferences⟩ := ht.inUse hbefore
    exact ⟨hid, hq.nextId ▸ hlt, hcount hreferences⟩
  · intro object tag htag
    rw [hq.nextId]
    rcases hq.untagged htag with hzero | htag
    · grind
    · exact ht.tag_lt htag
  · intro id global object hid hg
    have hbefore := hq.global? hid
    obtain ⟨target, htarget⟩ := hs.valid (x := .identifier id) hbefore
    have heq := (hq.globals hid htarget).unique hg
    exact hq.tagged (ht.carries hbefore (heq ▸ htarget))
  · intro id global object hid htag
    have hbefore := hq.global? hid
    obtain ⟨entry, hentry, -⟩ := Option.map_eq_some_iff.mp hbefore
    have hone := (ht.inUse hentry).1
    rcases hq.untagged htag with hzero | htag
    · grind
    · exact hq.globals hid (ht.designates hbefore htag)

theorem enrol (ho : Orderly a) (hs : HoldsSoundly a) (ht : Tagged a) {object : HeapId} {tag : Int}
    (htag : a.vm.tagAt? object = some tag)
    (hnew : 0 < tag → a.tracker.entries.get? tag.toNat = none) : Tagged (a.enrol object) := by
  let tagged := a.vm.setTagAt object a.tracker.nextId
  have htags : ∀ i, (a.enrol object).vm.tagAt? i =
      if object = i then (a.vm.tagAt? i).map fun _ => ↑a.tracker.nextId else a.vm.tagAt? i :=
    Vm.tagAt?_setTagAt a.vm object a.tracker.nextId
  have hself : (a.enrol object).vm.HoldsGlobal ⟨a.vm.lastRef + 8⟩ object :=
    Vm.holdsGlobal_newRef tagged object
  have hglobal? : ∀ id, (a.enrol object).tracker.global? id =
      if id = a.tracker.nextId then some ⟨a.vm.lastRef + 8⟩ else a.tracker.global? id := by
    intro id
    have h := held?_enrol object a (.identifier id)
    simpa [Agent.held?] using h
  have hkept : ∀ {global target}, a.vm.HoldsGlobal global target →
      (a.enrol object).vm.HoldsGlobal global target := fun hg => holdsGlobal_enrol ho.refs hg object
  constructor
  · exact Nat.succ_pos _
  · intro id entry hentry
    have hpos := ht.nextId_pos
    have hlookup : (a.enrol object).tracker.entries.get? id = if id = a.tracker.nextId then
        some ⟨⟨a.vm.lastRef + 8⟩, 1⟩ else a.tracker.entries.get? id := Table.get?_insert _ _ _ id
    show 1 ≤ id ∧ id < a.tracker.nextId + 1 ∧ 1 ≤ entry.references
    rw [hlookup] at hentry
    split at hentry
    · cases hentry
      grind
    · obtain ⟨hid, hlt, href⟩ := ht.inUse hentry
      grind
  · intro i other hother
    show other < ((a.tracker.nextId + 1 : Nat) : Int)
    rw [htags] at hother
    split at hother
    · obtain ⟨_, _, rfl⟩ := Option.map_eq_some_iff.mp hother
      grind
    · have hlt := ht.tag_lt hother
      grind
  · intro id global target hid hg
    rw [hglobal?] at hid
    rw [htags]
    split at hid
    · cases hid
      rename_i hnext
      rw [← hself.unique hg, if_pos rfl, htag, hnext]
      rfl
    · obtain ⟨before, hbefore⟩ := hs.valid (x := .identifier id) hid
      have htarget := (hkept hbefore).unique hg
      subst htarget
      have hcarries := ht.carries hid hbefore
      -- the object that becomes known is none that was known
      rw [if_neg, hcarries]
      rintro rfl
      obtain ⟨entry, hentry, _⟩ := Option.map_eq_some_iff.mp hid
      have hone := (ht.inUse hentry).1
      have hsame : tag = ↑id := by simpa [htag] using hcarries
      have hnone := hnew (by grind)
      rw [hsame, Int.toNat_natCast, hentry] at hnone
      cases hnone
  · intro id global target hid htarget
    rw [hglobal?] at hid
    rw [htags] at htarget
    split at hid <;> split at htarget
    · cases hid
      rename_i heq
      exact heq ▸ hself
    · rename_i hnext _
      have hlt := ht.tag_lt htarget
      grind
    · obtain ⟨_, _, heq⟩ := Option.map_eq_some_iff.mp htarget
      grind
    · exact hkept (ht.designates hid htarget)

end Tagged

section Quiet

variable {a b : Agent}

/-- A change makes one object known or none. -/
theorem Change.quiet_or_enrol (hs : HoldsSoundly a) (h : Change a b) :
    Quiet a b ∨ ∃ object tag, a.vm.tagAt? object = some tag ∧
      (0 < tag → a.tracker.entries.get? tag.toNat = none) ∧ b = a.enrol object := by
  cases h with
  | machine hkeeps =>
      exact .inl (.of_tracker_eq rfl hkeeps.tagged hkeeps.untagged fun _ hg => hkeeps.globals hg)
  | @recount id entry hentry count hpos =>
      refine .inl ⟨rfl, fun {other found} hfound => ?_, fun h => h, .inr, fun _ hg => hg⟩
      simp only [Tracker.setReferences, Table.get?_insert] at hfound
      split at hfound
      · rename_i heq
        cases hfound
        exact ⟨entry, heq ▸ hentry, rfl, fun _ => hpos⟩
      · exact ⟨found, hfound, rfl, fun h => h⟩
  | enrol htag hnew => exact .inr ⟨_, _, htag, hnew, rfl⟩
  | @forget id entry hentry =>
      have hsteady := Vm.steady_deleteRef a.vm .globalRef entry.global
      have hkept : ∀ {other found}, (a.tracker.remove id).entries.get? other = some found →
          other ≠ id ∧ a.tracker.entries.get? other = some found :=
        Table.get?_erase_eq_some.mp
      refine .inl ⟨rfl, fun hfound => ⟨_, (hkept hfound).2, rfl, fun h => h⟩, hsteady.tagged,
        hsteady.untagged, ?_⟩
      intro other global object hother hg
      obtain ⟨found, hfound, rfl⟩ := Option.map_eq_some_iff.mp hother
      obtain ⟨hne, hbefore⟩ := hkept hfound
      refine hs.deleteGlobalRef (x := .identifier id) (y := .identifier other) ?_ ?_ ?_ hg
      · simp [Agent.held?, Tracker.global?, hentry]
      · simp [Agent.held?, Tracker.global?, hbefore]
      · simpa using hne
  | advance | session =>
      exact .inl (.of_tracker_eq rfl (fun h => h) .inr fun _ hg => hg)
  | @remove request released _ hmem hreleases hdisables =>
      obtain ⟨set, counts, rfl⟩ := hreleases.eq
      have hreleased := hs.of_held (b := ((a.dropRequest request.id).setVm
        ((a.dropRequest request.id).vm.putBreakpoints set)).putBreakpoints counts)
        fun hx => ⟨hx, fun _ hg => ⟨hg.isNull, hg.get?⟩⟩
      have hheld : ∀ {id global}, b.held? (.identifier id) = some global → _ :=
        fun hx => hdisables.held hreleased hx
      obtain ⟨thread, enabled, held, rfl⟩ := hdisables.eq
      let told := (a.vm.putBreakpoints set).putNotifications enabled
      have hsteady : told.Steady (freed thread told) := steady_freed thread told
      refine .inl (.of_tracker_eq rfl hsteady.tagged hsteady.untagged fun hid hg => ?_)
      exact (hheld hid).2 _ ⟨hg.isNull, hg.get?⟩

/-- No object becomes known by an engagement. -/
theorem Engagement.quiet (h : Engagement a b) : Quiet a b := by
  cases h with
  | request hneeded hholds henables =>
      obtain ⟨set, counts, rfl⟩ := hholds.eq
      obtain ⟨vm, enabled, held, hkeeps, rfl⟩ := henables.eq
      exact .of_tracker_eq rfl hkeeps.tagged hkeeps.untagged fun _ hg =>
        ⟨hg.isNull, (hkeeps.globals ⟨hg.isNull, hg.get?⟩).get?⟩
  | session hnone henables =>
      obtain ⟨vm, enabled, held, hkeeps, rfl⟩ := henables.eq
      exact .of_tracker_eq rfl hkeeps.tagged hkeeps.untagged fun _ hg =>
        ⟨hg.isNull, (hkeeps.globals hg).get?⟩

end Quiet

/-! ### Sound states -/

/-- What holds of the agent's references, tags and identifiers throughout a run. -/
structure Sound (a : Agent) : Prop extends Orderly a, HoldsSoundly a, Tagged a

namespace Sound

variable {a b : Agent}

theorem change (hs : Sound a) (h : Change a b) : Sound b := by
  refine ⟨hs.toOrderly.change h, hs.toHoldsSoundly.change hs.toOrderly h, ?_⟩
  rcases h.quiet_or_enrol hs.toHoldsSoundly with hquiet | ⟨object, tag, htag, hnew, rfl⟩
  · exact hs.toTagged.quiet hs.toHoldsSoundly hquiet
  · exact Tagged.enrol hs.toOrderly hs.toHoldsSoundly hs.toTagged htag hnew

theorem engagement (hs : Sound a) (h : Engagement a b) : Sound b :=
  ⟨hs.toOrderly.engagement h, hs.toHoldsSoundly.engagement hs.toOrderly h,
    hs.toTagged.quiet hs.toHoldsSoundly h.quiet⟩

/-- What is so at the start and survives every change and engagement is so ever after. -/
theorem invariant {P : Agent → Prop} (hs : Sound a)
    (hchange : ∀ {a b}, Sound a → Change a b → P a → P b)
    (hengagement : ∀ {a b}, Sound a → Engagement a b → P a → P b) (ha : P a) (h : Unfolds a b) :
    Sound b ∧ P b :=
  (unfolds_invariant (P := fun b => Sound b ∧ P b)
    (fun _ _ _ h hb => ⟨hb.1.change h, hchange hb.1 h hb.2⟩)
    (fun _ _ _ h hb => ⟨hb.1.engagement h, hengagement hb.1 h hb.2⟩) hs.toOrderly ⟨hs, ha⟩ h).2

theorem unfolds (hs : Sound a) (h : Unfolds a b) : Sound b :=
  (hs.invariant (P := fun _ => True) (fun _ _ h => h) (fun _ _ h => h) trivial h).1

theorem run (hs : Sound a) (ops : List Op) : Sound (a.run ops) :=
  hs.unfolds (unfolds_run hs.toOrderly ops)

end Sound

/-- An agent starts soundly on a machine on which no tag is positive. -/
theorem sound_start {vm : Vm} (hb : vm.RefsBounded)
    (htags : ∀ {object tag}, vm.tagAt? object = some tag → tag < 1) (config : Config) :
    Sound (Agent.start vm config) where
  toOrderly := orderly_start hb config
  valid := fun {x global} hx => by cases x <;> cases hx
  once := fun {x y global} hx _ => by cases x <;> cases hx
  nextId_pos := Nat.one_pos
  inUse := fun hentry => by cases hentry
  tag_lt := htags
  carries := fun hid => by cases hid
  designates := fun hid => by cases hid

theorem sound_reached (steps : List Vm.Setup) (config : Config) (ops : List Op) :
    Sound (Agent.reached steps config ops) :=
  (sound_start (Vm.bounded_built steps) (fun htag => by
    rw [Vm.tagAt?_built htag]
    exact Int.one_pos) config).run ops

/-! ### Identity -/

section Sound

variable {a : Agent} {h : Handle} {object : HeapId} {id : ObjectId}

theorem HoldsSoundly.target?_eq_some (hs : HoldsSoundly a) :
    a.tracker.target? a.vm id = some object ↔
      ∃ global, a.tracker.global? id = some global ∧ a.vm.HoldsGlobal global object := by
  constructor
  · intro htarget
    obtain ⟨global, hglobal, htarget⟩ := Option.bind_eq_some_iff.mp htarget
    obtain ⟨held, hheld⟩ := hs.valid (x := .identifier id) hglobal
    have heq : held = object := by simpa [hheld.target?] using htarget
    exact ⟨global, hglobal, heq ▸ hheld⟩
  · rintro ⟨global, hglobal, hheld⟩
    simp [Tracker.target?, hglobal, hheld.target?]

/-- An identifier that is in use after a quiet change was so before, for the same object. -/
theorem Sound.target?_of_quiet {b : Agent} (hs : Sound a) (hq : Quiet a b)
    (htarget : b.tracker.target? b.vm id = some object) :
    a.tracker.target? a.vm id = some object := by
  obtain ⟨global, hglobal, hobject⟩ := Option.bind_eq_some_iff.mp htarget
  have hbefore := hq.global? hglobal
  obtain ⟨held, hheld⟩ := hs.valid (x := .identifier id) hbefore
  have heq : held = object := by simpa [(hq.globals hglobal hheld).target?] using hobject
  exact hs.target?_eq_some.mpr ⟨global, hbefore, heq ▸ hheld⟩

theorem Sound.target?_of_enrol {known : HeapId} (hs : Sound a) (hs' : Sound (a.enrol known))
    (hne : id ≠ a.tracker.nextId)
    (htarget : (a.enrol known).tracker.target? (a.enrol known).vm id = some object) :
    a.tracker.target? a.vm id = some object := by
  obtain ⟨global, hglobal, hheld⟩ := hs'.target?_eq_some.mp htarget
  have hsame := held?_enrol known a (.identifier id)
  rw [if_neg (by simpa using hne)] at hsame
  have hbefore : a.tracker.global? id = some global := hsame.symm.trans hglobal
  obtain ⟨held, hold⟩ := hs.valid (x := .identifier id) hbefore
  have hkept := holdsGlobal_enrol hs.refs hold known
  exact hs.target?_eq_some.mpr ⟨global, hbefore, hkept.unique hheld ▸ hold⟩

/-- Tracking an object hands out the identifier by which it is known, or the next one if it is not
known. -/
theorem Sound.trackNew (hs : Sound a) (hgrant : a.vm.grants Capabilities.canTagObjects)
    (htarget : a.vm.target? h = some object) (hlive : object < a.vm.heap.size) :
    ∃ id b, (Tracking.trackNew h).perform a = (.ok id, b) ∧
      (∃ global, resolve b.tracker id = .ok global ∧ b.vm.HoldsGlobal global object) ∧
        (a.tracker.target? a.vm id = some object ∨
          id = a.tracker.nextId ∧ ∀ known, a.tracker.target? a.vm known ≠ some object) := by
  have htag : a.vm.tagAt? object = some a.vm.heap[object].tag := by
    simp [Vm.tagAt?, Array.getElem?_eq_getElem hlive]
  generalize a.vm.heap[object].tag = tag at htag
  by_cases hnew : 0 < tag → a.tracker.entries.get? tag.toNat = none
  · refine ⟨_, _, perform_trackNew_new hgrant htarget htag hnew, ?_, .inr ⟨rfl, ?_⟩⟩
    · refine ⟨⟨a.vm.lastRef + 8⟩, ?_, Vm.holdsGlobal_newRef _ object⟩
      simp [resolve, Tracker.global?, Agent.enrol, Tracker.add]
      rfl
    · intro known hknown
      obtain ⟨global, hglobal, hheld⟩ := hs.target?_eq_some.mp hknown
      have hsame : tag = ↑known := by simpa [htag] using hs.carries hglobal hheld
      obtain ⟨entry, hentry, _⟩ := Option.map_eq_some_iff.mp hglobal
      have hpos := (hs.inUse hentry).1
      have hnone := hnew (by grind)
      rw [hsame, Int.toNat_natCast, hentry] at hnone
      cases hnone
  · obtain ⟨hpos, hne⟩ := Classical.not_imp.mp hnew
    obtain ⟨entry, hentry⟩ := Option.ne_none_iff_exists'.mp hne
    have hcast : (tag.toNat : Int) = tag := Int.toNat_of_nonneg (Int.le_of_lt hpos)
    rw [← hcast] at htag
    have hglobal : a.tracker.global? tag.toNat = some entry.global := by
      simp [Tracker.global?, hentry]
    have hheld := hs.designates hglobal htag
    refine ⟨_, _, perform_trackNew_known hgrant htarget htag (Int.pos_iff_toNat_pos.mp hpos) hentry,
      ⟨entry.global, ?_, hheld⟩, .inl (hs.target?_eq_some.mpr ⟨_, hglobal, hheld⟩)⟩
    simp [resolve, Tracker.global?, Tracker.setReferences]

/-- Identifiers are handed out in increasing order, and none is ever used for another object. -/
theorem Sound.designated_before {b : Agent} (hs : Sound a) (h : Unfolds a b) :
    a.tracker.nextId ≤ b.tracker.nextId ∧ ∀ {id object}, id < a.tracker.nextId →
      b.tracker.target? b.vm id = some object → a.tracker.target? a.vm id = some object := by
  refine (hs.invariant (P := fun b => a.tracker.nextId ≤ b.tracker.nextId ∧ ∀ {id object},
    id < a.tracker.nextId → b.tracker.target? b.vm id = some object →
      a.tracker.target? a.vm id = some object) ?_ ?_ ⟨Nat.le_refl _, fun _ h => h⟩ h).2
  · intro b c hb hchange ⟨hle, hback⟩
    rcases hchange.quiet_or_enrol hb.toHoldsSoundly with hquiet | ⟨known, tag, htag, hnew, rfl⟩
    · exact ⟨hquiet.nextId ▸ hle, fun hid h => hback hid (hb.target?_of_quiet hquiet h)⟩
    · refine ⟨Nat.le_succ_of_le hle, fun {id object} hid h => hback hid ?_⟩
      have hne : id ≠ b.tracker.nextId := by grind
      exact hb.target?_of_enrol (hb.change (.enrol htag hnew)) hne h
  · intro b c hb hlast ⟨hle, hback⟩
    exact ⟨hlast.quiet.nextId ▸ hle, fun hid h => hback hid (hb.target?_of_quiet hlast.quiet h)⟩

/-- No two identifiers in use designate the same object. -/
theorem Sound.eq_of_target? (hs : Sound a) {id' : ObjectId}
    (hid : a.tracker.target? a.vm id = some object)
    (hid' : a.tracker.target? a.vm id' = some object) : id = id' := by
  obtain ⟨global, hglobal, hheld⟩ := hs.target?_eq_some.mp hid
  obtain ⟨global', hglobal', hheld'⟩ := hs.target?_eq_some.mp hid'
  have htag := hs.carries hglobal hheld
  rw [hs.carries hglobal' hheld'] at htag
  exact (Int.ofNat_inj.mp (Option.some.inj htag)).symm

end Sound

/-- Throughout a run the identifiers in use, the tags and the global references agree: each
identifier designates one object, which carries it as its tag, and no other identifier does.  So an
object is tracked under the identifier by which it is known already, and under one that was never
used before if there is none. -/
theorem identifiers_agree (steps : List Vm.Setup) (config : Config) (ops : List Op) :
    let a := Agent.reached steps config ops
    (∀ id entry, a.tracker.entries.get? id = some entry →
      1 ≤ id ∧ id < a.tracker.nextId ∧ 1 ≤ entry.references ∧
        ∃ object, a.vm.refs.get? entry.global.raw = some ⟨object, .globalRef⟩ ∧
          a.vm.tagAt? object = some ↑id) ∧
    (∀ id id' object, a.tracker.target? a.vm id = some object →
      a.tracker.target? a.vm id' = some object → id = id') ∧
    (a.vm.grants Capabilities.canTagObjects → ∀ h object, a.vm.target? h = some object →
      object < a.vm.heap.size →
        ∃ id b, (Tracking.trackNew h).perform a = (.ok id, b) ∧
          (∃ global, resolve b.tracker id = .ok global ∧ b.vm.target? global = some object) ∧
          (∀ known, a.tracker.target? a.vm known = some object → id = known) ∧
          ((∀ known, a.tracker.target? a.vm known ≠ some object) → ∀ past, past <+: ops →
            let before := Agent.reached steps config past
            before.tracker.entries.get? id = none ∧ before.tracker.nextId ≤ id)) := by
  intro a
  have hs : Sound a := sound_reached steps config ops
  refine ⟨?_, fun id id' object => hs.eq_of_target?, ?_⟩
  · intro id entry hentry
    obtain ⟨hpos, hlt, hreferences⟩ := hs.inUse hentry
    have hglobal : a.tracker.global? id = some entry.global := by simp [Tracker.global?, hentry]
    obtain ⟨object, hheld⟩ := hs.valid (x := .identifier id) hglobal
    exact ⟨hpos, hlt, hreferences, object, hheld.get?, hs.carries hglobal hheld⟩
  · intro hgrant h object htarget hlive
    obtain ⟨id, b, hperform, ⟨global, hresolve, hheld⟩, hid⟩ := hs.trackNew hgrant htarget hlive
    refine ⟨id, b, hperform, ⟨global, hresolve, hheld.target?⟩, ?_, ?_⟩
    · intro known hknown
      rcases hid with hid | ⟨_, hunknown⟩
      · exact hs.eq_of_target? hid hknown
      · exact absurd hknown (hunknown known)
    · rintro hunknown past ⟨later, rfl⟩
      rcases hid with hid | ⟨rfl, _⟩
      · exact absurd hid (hunknown id)
      · have hpast := sound_reached steps config past
        have hle := (hpast.designated_before (unfolds_run hpast.toOrderly later)).1
        rw [Agent.reached, ← Agent.run_append] at hle
        refine ⟨?_, hle⟩
        cases hentry : (Agent.reached steps config past).tracker.entries.get? a.tracker.nextId with
        | none => rfl
        | some entry =>
            have hlt := (hpast.inUse hentry).2.1
            exact absurd hlt (Nat.not_lt.mpr hle)

end DebugAgent
