import DebugAgent.Proofs.Undone

/-!
# Giving identifiers back

A list of requests to give identifiers back is worked off one request after another.  What is left in
the end depends on the total for each identifier only: its entry stands for so many references less,
or it is gone, and its global reference with it, if there are no more.
-/

namespace DebugAgent

open DebugAgent.Action Command Tracking

variable {a : Agent}

/-! ### One request -/

/-- What is left of an entry after some of the references to its identifier are given back. -/
def Tracked.less (entry : Tracked) (count : Nat) : Option Tracked :=
  if entry.references - count = 0 then none
  else some { entry with references := entry.references - count }

theorem Tracked.less_zero {entry : Tracked} (hcount : 0 < entry.references) :
    entry.less 0 = some entry :=
  if_neg (Nat.ne_of_gt hcount)

/-- What is given back bit by bit is given back in the end. -/
theorem Tracked.less_add (entry : Tracked) (m n : Nat) :
    (entry.less m).bind (·.less n) = entry.less (m + n) := by
  simp only [less]
  split
  · rw [if_pos (by omega)]
    rfl
  · simp only [Option.bind_some, Nat.sub_sub]

theorem Tracked.global_of_less {entry left : Tracked} {count : Nat}
    (hleft : entry.less count = some left) : left.global = entry.global := by
  rw [less] at hleft
  split at hleft
  · cases hleft
  · cases hleft
    rfl

/-- Some references to an identifier are given back.  The last one takes the identifier with it. -/
def Agent.giveBack (a : Agent) (request : DisposeRequest) : Agent :=
  match a.tracker.entries.get? request.objectId with
  | none => a
  | some entry =>
      if entry.references - request.count = 0 then forget request.objectId entry a
      else
        { a with
          tracker := a.tracker.setReferences request.objectId entry
            (entry.references - request.count) }

/-- Identifiers that are not in use are skipped. -/
theorem perform_dispose (request : DisposeRequest) (a : Agent) :
    ∃ outcome, ((dispose request.objectId request.count : Command Unit).attempt :
      Command (Except ProtocolError Unit)).perform a = (.ok outcome, a.giveBack request) := by
  rw [Agent.giveBack]
  cases hentry : a.tracker.entries.get? request.objectId with
  | none => exact ⟨.error .invalidObject, by simp [dispose, attempt, perform_bind, hentry]⟩
  | some entry =>
      refine ⟨.ok (), ?_⟩
      by_cases hleft : entry.references - request.count = 0
      · simp [dispose, attempt, perform_bind, hentry, hleft]
      · simp [dispose, attempt, perform_bind, hentry, hleft, setTracker]

/-- A request finds no identifier, or it leaves some references to it, or none. -/
theorem giveBack_cases (a : Agent) (request : DisposeRequest) :
    a.tracker.entries.get? request.objectId = none ∧ a.giveBack request = a ∨
      ∃ entry, a.tracker.entries.get? request.objectId = some entry ∧
        (entry.less request.count = none ∧
            a.giveBack request = forget request.objectId entry a ∨
          ∃ left, entry.less request.count = some left ∧ 0 < left.references ∧
            a.giveBack request = { a with
              tracker := a.tracker.setReferences request.objectId entry left.references }) := by
  rw [Agent.giveBack]
  cases hentry : a.tracker.entries.get? request.objectId with
  | none => exact .inl ⟨rfl, rfl⟩
  | some entry =>
      refine .inr ⟨entry, rfl, ?_⟩
      by_cases hleft : entry.references - request.count = 0
      · exact .inl ⟨if_pos hleft, if_pos hleft⟩
      · exact .inr ⟨_, if_neg hleft, Nat.pos_of_ne_zero hleft, if_neg hleft⟩

theorem IdsBounded.giveBack (hids : IdsBounded a) (request : DisposeRequest) :
    IdsBounded (a.giveBack request) := by
  rcases giveBack_cases a request with
    ⟨-, heq⟩ | ⟨entry, hentry, ⟨-, heq⟩ | ⟨left, -, hpos, heq⟩⟩
  · rwa [heq]
  · rw [heq]
    exact hids.forget request.objectId entry
  · rw [heq]
    exact hids.setReferences hentry hpos

/-! ### Lists of requests -/

/-- How many references to an identifier a list of requests gives back in all. -/
def givenBack : List DisposeRequest → ObjectId → Nat
  | [], _ => 0
  | request :: requests, id =>
      (if request.objectId = id then request.count else 0) + givenBack requests id

/-- The requests of the list, one after another. -/
def Agent.giveBackAll (a : Agent) (requests : List DisposeRequest) : Agent :=
  requests.foldl Agent.giveBack a

/-- Giving identifiers back never fails. -/
theorem Command.Machine.perform_disposeObjects (requests : List DisposeRequest) (a : Agent) :
    (disposeObjects requests).perform a = (.ok (), a.giveBackAll requests) := by
  induction requests generalizing a with
  | nil => rfl
  | cons request requests ih =>
      obtain ⟨outcome, hperform⟩ := perform_dispose request a
      have hfirst : (do let _ ← (dispose request.objectId request.count : Command Unit).attempt :
          Command Unit).perform a = (.ok (), a.giveBack request) := by
        rw [perform_bind_of_ok hperform, perform_pure]
      rw [Agent.giveBackAll, List.foldl_cons, ← Agent.giveBackAll, ← ih]
      exact perform_bind_of_ok hfirst _

theorem get?_giveBack (hids : IdsBounded a) (request : DisposeRequest) (id : ObjectId) :
    (a.giveBack request).tracker.entries.get? id =
      (a.tracker.entries.get? id).bind
        (·.less (if request.objectId = id then request.count else 0)) := by
  by_cases hsame : request.objectId = id
  · subst hsame
    rw [if_pos rfl]
    rcases giveBack_cases a request with
      ⟨hnone, heq⟩ | ⟨entry, hentry, ⟨hless, heq⟩ | ⟨left, hless, -, heq⟩⟩
    · rw [heq, hnone]
      rfl
    · rw [heq, hentry, Option.bind_some, hless]
      exact Table.get?_erase_self _ _
    · rw [heq, hentry, Option.bind_some, hless]
      refine (Table.get?_insert_self _ _ _).trans (congrArg some ?_)
      rw [← Tracked.global_of_less hless]
  · rw [if_neg hsame]
    have hother : (a.giveBack request).tracker.entries.get? id = a.tracker.entries.get? id := by
      rcases giveBack_cases a request with ⟨-, heq⟩ | ⟨entry, -, ⟨-, heq⟩ | ⟨left, -, -, heq⟩⟩
      · rw [heq]
      · rw [heq]
        exact Table.get?_erase_of_ne (Ne.symm hsame)
      · rw [heq]
        exact Table.get?_insert_of_ne (Ne.symm hsame)
    rw [hother]
    cases hentry : a.tracker.entries.get? id with
    | none => rfl
    | some entry => exact (Tracked.less_zero (hids.counted hentry)).symm

/-- What is left of the entry of an identifier depends on the total that is given back. -/
theorem get?_giveBackAll (hids : IdsBounded a) (requests : List DisposeRequest) (id : ObjectId) :
    (a.giveBackAll requests).tracker.entries.get? id =
      (a.tracker.entries.get? id).bind (·.less (givenBack requests id)) := by
  induction requests generalizing a with
  | nil =>
      cases hentry : a.tracker.entries.get? id with
      | none => exact hentry
      | some entry => exact hentry.trans (Tracked.less_zero (hids.counted hentry)).symm
  | cons request requests ih =>
      rw [Agent.giveBackAll, List.foldl_cons, ← Agent.giveBackAll, ih (hids.giveBack request),
        get?_giveBack hids, Option.bind_assoc]
      simp only [Tracked.less_add, givenBack]

/-- All references to the identifier that the global reference is held for are given back. -/
def Agent.Loses (a : Agent) (requests : List DisposeRequest) (raw : Nat) : Prop :=
  ∃ id entry, a.tracker.entries.get? id = some entry ∧ entry.less (givenBack requests id) = none ∧
    entry.global.raw = raw

theorem not_loses_nil (hids : IdsBounded a) (raw : Nat) : ¬ a.Loses [] raw := by
  rintro ⟨id, entry, hentry, hgone, -⟩
  cases (Tracked.less_zero (hids.counted hentry)).symm.trans hgone

/-- The last reference to an identifier is given back by the first request or by a later one. -/
theorem loses_cons (hids : IdsBounded a) (request : DisposeRequest) (requests : List DisposeRequest)
    (raw : Nat) :
    a.Loses (request :: requests) raw ↔
      a.Loses [request] raw ∨ (a.giveBack request).Loses requests raw := by
  have hone : ∀ id, givenBack [request] id = if request.objectId = id then request.count else 0 :=
    fun _ => rfl
  simp only [Agent.Loses, get?_giveBack hids, hone]
  constructor
  · rintro ⟨id, entry, hentry, hgone, hraw⟩
    rw [givenBack, ← Tracked.less_add] at hgone
    cases hless : entry.less (if request.objectId = id then request.count else 0) with
    | none => exact .inl ⟨id, entry, hentry, hless, hraw⟩
    | some left =>
        rw [hless, Option.bind_some] at hgone
        refine .inr ⟨id, left, ?_, hgone, (congrArg _ (Tracked.global_of_less hless)).trans hraw⟩
        rw [hentry, Option.bind_some, hless]
  · rintro (⟨id, entry, hentry, hgone, hraw⟩ | ⟨id, left, hleft, hgone, hraw⟩)
    · refine ⟨id, entry, hentry, ?_, hraw⟩
      rw [givenBack, ← Tracked.less_add, hgone]
      rfl
    · obtain ⟨entry, hentry, hless⟩ := Option.bind_eq_some_iff.mp hleft
      refine ⟨id, entry, hentry, ?_, (congrArg _ (Tracked.global_of_less hless)).symm.trans hraw⟩
      rw [givenBack, ← Tracked.less_add, hless, Option.bind_some, hgone]

theorem global_giveBack (hids : IdsBounded a) (request : DisposeRequest) (raw : Nat)
    (object : HeapId) :
    (a.giveBack request).vm.refs.get? raw = some ⟨object, .globalRef⟩ ↔
      a.vm.refs.get? raw = some ⟨object, .globalRef⟩ ∧ ¬ a.Loses [request] raw := by
  -- a single request can take the last reference to no identifier but its own
  have hown : ∀ {id entry}, a.tracker.entries.get? id = some entry →
      entry.less (givenBack [request] id) = none →
        request.objectId = id ∧ entry.less request.count = none := by
    intro id entry hentry hgone
    by_cases hsame : request.objectId = id
    · rw [givenBack, if_pos hsame] at hgone
      exact ⟨hsame, hgone⟩
    · rw [givenBack, if_neg hsame] at hgone
      cases (Tracked.less_zero (hids.counted hentry)).symm.trans hgone
  rcases giveBack_cases a request with
    ⟨hnone, heq⟩ | ⟨entry, hentry, ⟨hless, heq⟩ | ⟨left, hless, -, heq⟩⟩
  · rw [heq]
    refine (and_iff_left ?_).symm
    rintro ⟨id, found, hfound, hgone, -⟩
    obtain ⟨rfl, -⟩ := hown hfound hgone
    cases hnone.symm.trans hfound
  · rw [heq, forget, Vm.global_deleteGlobalRef]
    refine and_congr_right fun _ => not_congr ⟨?_, ?_⟩
    · rintro rfl
      refine ⟨request.objectId, entry, hentry, ?_, rfl⟩
      rwa [givenBack, if_pos rfl]
    · rintro ⟨id, found, hfound, hgone, hraw⟩
      obtain ⟨rfl, -⟩ := hown hfound hgone
      cases hentry.symm.trans hfound
      exact hraw.symm
  · rw [heq]
    refine (and_iff_left ?_).symm
    rintro ⟨id, found, hfound, hgone, -⟩
    obtain ⟨rfl, hnone⟩ := hown hfound hgone
    cases hentry.symm.trans hfound
    cases hless.symm.trans hnone

/-- A global reference is deleted with the last reference to the identifier that it is held for. -/
theorem global_giveBackAll (hids : IdsBounded a) (requests : List DisposeRequest) (raw : Nat)
    (object : HeapId) :
    (a.giveBackAll requests).vm.refs.get? raw = some ⟨object, .globalRef⟩ ↔
      a.vm.refs.get? raw = some ⟨object, .globalRef⟩ ∧ ¬ a.Loses requests raw := by
  induction requests generalizing a with
  | nil => exact (and_iff_left (not_loses_nil hids raw)).symm
  | cons request requests ih =>
      rw [Agent.giveBackAll, List.foldl_cons, ← Agent.giveBackAll, ih (hids.giveBack request),
        global_giveBack hids, and_assoc, ← not_or, ← loses_cons hids]

end DebugAgent
