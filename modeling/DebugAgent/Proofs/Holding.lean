import DebugAgent.Proofs.Evolution

/-!
# What the agent holds

All the global references that the agent holds are valid, and no two of them are the same reference,
so giving one up takes nothing away from the others.
-/

namespace DebugAgent

open Registration

/-- Every reference that the agent holds is valid and held for one thing only. -/
structure HoldsSoundly (a : Agent) : Prop where
  valid : ∀ {x global}, a.held? x = some global → ∃ object, a.vm.HoldsGlobal global object
  once : ∀ {x y global}, a.held? x = some global → a.held? y = some global → x = y

namespace HoldsSoundly

variable {a b : Agent}

/-- Nothing new is held, and what is held stays valid. -/
theorem of_held (hs : HoldsSoundly a) (hheld : ∀ {x global}, b.held? x = some global →
    a.held? x = some global ∧ ∀ object, a.vm.HoldsGlobal global object →
      b.vm.HoldsGlobal global object) : HoldsSoundly b where
  valid := by
    intro x global hx
    obtain ⟨hold, hkept⟩ := hheld hx
    obtain ⟨object, hglobal⟩ := hs.valid hold
    exact ⟨object, hkept object hglobal⟩
  once := fun hx hy => hs.once (hheld hx).1 (hheld hy).1

/-- One new reference is held, which is newer than all others. -/
theorem of_new (hs : HoldsSoundly a) (hb : a.vm.RefsBounded) {x : Holder} {fresh : Handle}
    {object : HeapId} (hnew : a.vm.lastRef < fresh.raw) (hvalid : b.vm.HoldsGlobal fresh object)
    (hfresh : b.held? x = some fresh) (hother : ∀ y, y ≠ x → b.held? y = a.held? y)
    (hkept : ∀ {global object}, a.vm.HoldsGlobal global object → b.vm.HoldsGlobal global object) :
    HoldsSoundly b := by
  have hold : ∀ {y global}, y ≠ x → b.held? y = some global →
      a.held? y = some global ∧ global ≠ fresh := by
    intro y global hne hy
    rw [hother y hne] at hy
    obtain ⟨target, hglobal⟩ := hs.valid hy
    have hle := hb _ _ hglobal.get?
    exact ⟨hy, fun heq => by rw [heq] at hle; omega⟩
  constructor
  · intro y global hy
    by_cases hyx : y = x
    · rw [hyx, hfresh] at hy
      cases hy
      exact ⟨object, hvalid⟩
    · obtain ⟨target, hglobal⟩ := hs.valid (hold hyx hy).1
      exact ⟨target, hkept hglobal⟩
  · intro y z global hy hz
    by_cases hyx : y = x <;> by_cases hzx : z = x
    · rw [hyx, hzx]
    · rw [hyx, hfresh] at hy
      cases hy
      exact absurd rfl (hold hzx hz).2
    · rw [hzx, hfresh] at hz
      cases hz
      exact absurd rfl (hold hyx hy).2
    · exact hs.once (hold hyx hy).1 (hold hzx hz).1

end HoldsSoundly

/-! ### What changes do to what is held -/

section Held

variable {a b : Agent}

/-- Giving up the reference held for one thing leaves the references held for others alone. -/
theorem HoldsSoundly.deleteGlobalRef (hs : HoldsSoundly a) {x y : Holder} {global other : Handle}
    {object : HeapId} (hx : a.held? x = some global) (hy : a.held? y = some other) (hne : y ≠ x)
    (hother : a.vm.HoldsGlobal other object) :
    (a.vm.deleteGlobalRef global).HoldsGlobal other object := by
  refine ⟨hother.isNull, Vm.get?_deleteRef_of_ne hother.get? (.inr fun hraw => hne ?_)⟩
  have heq : other = global := congrArg Handle.mk hraw
  exact hs.once hy (heq ▸ hx)

namespace Registration

/-- Disabling a notification gives up at most the reference held for it. -/
theorem Disables.held {key : NotificationKey} (hdisables : Disables a key b)
    (hs : HoldsSoundly a) {x : Holder} {global : Handle} (hx : b.held? x = some global) :
    a.held? x = some global ∧
      ∀ object, a.vm.HoldsGlobal global object → b.vm.HoldsGlobal global object := by
  -- the reference is taken away from a machine that has the references of the first state
  have hfreed : ∀ {held : Notification} {vm : Vm},
      a.requests.notifications.get? key = some held → vm.refs = a.vm.refs →
      (a.putNotifications (a.requests.notifications.erase key)).held? x = some global →
      a.held? x = some global ∧ ∀ object, a.vm.HoldsGlobal global object →
        (freed held.thread vm).HoldsGlobal global object := by
    intro held vm hheld hrefs hx
    rw [held?_putNotifications_erase] at hx
    split at hx
    · cases hx
    · rename_i hne
      refine ⟨hx, fun object hg => ?_⟩
      cases hthread : held.thread with
      | none => exact ⟨hg.isNull, hrefs ▸ hg.get?⟩
      | some thread =>
          have hkey : a.held? (.notification key) = some thread := by
            simp [Agent.held?, hheld, hthread]
          have hraw : global.raw ≠ thread.raw := fun heq => hne <| by
            have hsame : global = thread := congrArg Handle.mk heq
            exact hs.once (hsame ▸ hx) hkey
          exact ⟨hg.isNull, Vm.get?_deleteRef_of_ne (hrefs ▸ hg.get?) (.inr hraw)⟩
  cases hdisables with
  | unknown => exact ⟨hx, fun _ hg => hg⟩
  | @fewer held hheld hcount =>
      rw [held?_putNotifications_insert] at hx
      split at hx
      · rename_i heq
        exact ⟨by simpa [heq, Agent.held?, hheld] using hx, fun _ hg => hg⟩
      · exact ⟨hx, fun _ hg => hg⟩
  | last hheld | stuck hheld => exact hfreed hheld rfl hx

end Registration

theorem HoldsSoundly.change (ho : Orderly a) (hs : HoldsSoundly a) (h : Change a b) :
    HoldsSoundly b := by
  cases h with
  | machine hkeeps => exact hs.of_held fun hx => ⟨hx, fun _ hg => hkeeps.globals hg⟩
  | recount hentry =>
      refine hs.of_held fun {x global} hx => ⟨?_, fun _ hg => hg⟩
      exact (held?_setReferences hentry _ x).symm.trans hx
  | advance | session => exact hs.of_held fun hx => ⟨hx, fun _ hg => hg⟩
  | @enrol object tag htag hnew =>
      let tagged := a.vm.setTagAt object a.tracker.nextId
      have hnew : a.vm.lastRef < (⟨a.vm.lastRef + 8⟩ : Handle).raw :=
        Nat.lt_add_of_pos_right (by decide)
      refine hs.of_new ho.refs (x := .identifier a.tracker.nextId) hnew
        (Vm.holdsGlobal_newRef tagged object) ?_ ?_ ?_
      · simp [held?_enrol]
      · intro y hne
        rw [held?_enrol, if_neg hne]
      · exact fun hg => holdsGlobal_enrol ho.refs hg object
  | @forget id entry hentry =>
      refine hs.of_held fun {x global} hx => ?_
      rw [held?_forget] at hx
      split at hx
      · cases hx
      · rename_i hne
        refine ⟨hx, fun object hg => hs.deleteGlobalRef (x := .identifier id) ?_ hx hne hg⟩
        simp [Agent.held?, Tracker.global?, hentry]
  | @remove request released _ hmem hreleases hdisables =>
      have hreleased : HoldsSoundly released := by
        obtain ⟨set, counts, rfl⟩ := hreleases.eq
        exact hs.of_held fun hx => ⟨hx, fun _ hg => ⟨hg.isNull, hg.get?⟩⟩
      exact hreleased.of_held fun hx => hdisables.held hreleased hx

namespace Registration

theorem Enables.holdsSoundly {key : NotificationKey} (henables : Enables a key b)
    (hb : a.vm.RefsBounded) (hs : HoldsSoundly a) : HoldsSoundly b := by
  cases henables with
  | @more held hheld =>
      refine hs.of_held fun {x global} hx => ⟨?_, fun _ hg => hg⟩
      rw [held?_putNotifications_insert] at hx
      split at hx
      · rename_i heq
        simpa [heq, Agent.held?, hheld] using hx
      · exact hx
  | @first vm thread target hnone hkeeps hheld hdemand =>
      obtain ⟨kind, id⟩ := key
      cases hheld with
      | all =>
          refine hs.of_held fun {x global} hx => ⟨?_, fun _ hg => ?_⟩
          · have hx := (held?_putNotifications_insert a x).symm.trans hx
            split at hx
            · cases hx
            · exact hx
          · exact ⟨hg.isNull, (hkeeps.globals hg).get?⟩
      | @one id global thread hdesignates hthread hglobal hnew =>
          refine hs.of_new hb (x := .notification (kind, some id)) hnew
            ⟨hglobal.isNull, hglobal.get?⟩ ?_ ?_ ?_
          · exact (held?_putNotifications_insert a _).trans (if_pos rfl)
          · intro y hne
            exact (held?_putNotifications_insert a y).trans (if_neg hne)
          · exact fun hg => ⟨hg.isNull, (hkeeps.globals hg).get?⟩

theorem Holds.holdsSoundly {position : Option (MethodId × CodeIndex)}
    (hholds : Holds a position b) (hs : HoldsSoundly a) : HoldsSoundly b := by
  obtain ⟨set, counts, rfl⟩ := hholds.eq
  exact hs.of_held fun hx => ⟨hx, fun _ hg => ⟨hg.isNull, hg.get?⟩⟩

end Registration

theorem HoldsSoundly.engagement (ho : Orderly a) (hs : HoldsSoundly a) (h : Engagement a b) :
    HoldsSoundly b := by
  have hsame : ∀ {c d : Agent}, HoldsSoundly c → d.vm = c.vm → d.tracker = c.tracker →
      d.requests.notifications = c.requests.notifications → HoldsSoundly d := by
    intro c d hc hvm htracker hnotifications
    have hheld : d.held? = c.held? := by
      funext x
      cases x <;> simp [Agent.held?, htracker, hnotifications]
    exact hc.of_held fun hx => ⟨hheld ▸ hx, fun _ hg => hvm ▸ hg⟩
  cases h with
  | request hneeded hholds henables =>
      have hb := hholds.ages.bounded ho.refs
      exact hsame (henables.holdsSoundly hb (hholds.holdsSoundly hs)) rfl rfl rfl
  | session hnone henables => exact hsame (henables.holdsSoundly ho.refs hs) rfl rfl rfl

end Held

end DebugAgent
