import DebugAgent.Proofs.CallbacksInStep
import DebugAgent.Proofs.StackFrames

/-!
# References that are taken anew

A command works with references that it takes to some objects and gives back in the end.  If it gives
them back half-way and takes new ones to the same objects, nobody can tell but by the numbers of
references: what has come to an end with the old references goes on with the new ones.
-/

namespace DebugAgent

open DebugAgent.Action Command

/-! ### Taking references -/

namespace Vm

variable {vm : Vm} {ids : List HeapId} {raw : Nat}

theorem lastRef_newLocals (ids : List HeapId) (vm : Vm) :
    (vm.newLocals ids).2.lastRef = vm.lastRef + 8 * ids.length := by
  induction ids generalizing vm with
  | nil => rfl
  | cons id ids ih =>
      have hrest := ih (vm.newLocal id).2
      have hfirst : (vm.newLocal id).2.lastRef = vm.lastRef + 8 := rfl
      rw [List.length_cons]
      exact hrest.trans (by omega)

/-- New references are numbered from the last one on. -/
theorem newLocals_fst (ids : List HeapId) (vm : Vm) :
    (vm.newLocals ids).1 = (List.range ids.length).map fun n => ⟨vm.lastRef + 8 * (n + 1)⟩ := by
  induction ids generalizing vm with
  | nil => rfl
  | cons id ids ih =>
      have hrest : (newLocals ids (vm.newLocal id).2).1 =
          (List.range ids.length).map fun n => ⟨vm.lastRef + 8 * (n + 1 + 1)⟩ := by
        rw [ih]
        refine List.map_congr_left fun n _ => congrArg Handle.mk ?_
        have hfirst : (vm.newLocal id).2.lastRef = vm.lastRef + 8 := rfl
        omega
      rw [List.length_cons, List.range_succ_eq_map, List.map_cons, List.map_map]
      exact congrArg _ hrest

/-- References that have been made before are as they were. -/
theorem get?_newLocals_old (vm : Vm) (ids : List HeapId) (hraw : raw ≤ vm.lastRef) :
    (vm.newLocals ids).2.refs.get? raw = vm.refs.get? raw := by
  induction ids generalizing vm with
  | nil => rfl
  | cons id ids ih =>
      have hlater : raw ≤ (vm.newLocal id).2.lastRef := Nat.le_trans hraw (Nat.le_add_right _ 8)
      have hfirst := get?_newRef vm .localRef id raw
      rw [if_neg (by omega)] at hfirst
      exact (ih _ hlater).trans hfirst

theorem get?_newLocals_new {n : Nat} (hn : n < ids.length) (vm : Vm) :
    (vm.newLocals ids).2.refs.get? (vm.lastRef + 8 * (n + 1)) = some ⟨ids[n], .localRef⟩ := by
  induction ids generalizing vm n with
  | nil => cases hn
  | cons id ids ih =>
      have hlast : (vm.newLocal id).2.lastRef = vm.lastRef + 8 := rfl
      cases n with
      | zero =>
          have hold := get?_newLocals_old (vm.newLocal id).2 ids (Nat.le_of_eq hlast.symm)
          have hfirst := get?_newRef vm .localRef id (vm.lastRef + 8)
          rw [if_pos rfl] at hfirst
          exact hold.trans hfirst
      | succ n =>
          have hrest := ih (Nat.lt_of_succ_lt_succ hn) (vm.newLocal id).2
          rw [hlast, show vm.lastRef + 8 + 8 * (n + 1) = vm.lastRef + 8 * (n + 1 + 1) by omega] at hrest
          exact hrest

/-- Giving references back leaves the others, and the rest of the machine. -/
theorem dropLocals_eq (hs : List Handle) (vm : Vm) : ∃ refs,
    hs.foldl dropLocal vm = { vm with refs } ∧
      ∀ raw, (∀ h ∈ hs, h.raw ≠ raw) → refs.get? raw = vm.refs.get? raw := by
  induction hs generalizing vm with
  | nil => exact ⟨vm.refs, rfl, fun _ _ => rfl⟩
  | cons h hs ih =>
      obtain ⟨refs, heq, hothers⟩ := ih (dropLocal vm h)
      have hfirst : ∃ refs, dropLocal vm h = { vm with refs } ∧
          ∀ raw, h.raw ≠ raw → refs.get? raw = vm.refs.get? raw := by
        rw [dropLocal, deleteLocalRef, deleteRef]
        split
        · exact ⟨vm.refs, rfl, fun _ _ => rfl⟩
        split
        · split
          · exact ⟨_, rfl, fun raw hne => by rw [Table.get?_erase, if_neg hne.symm]⟩
          · exact ⟨vm.refs, rfl, fun _ _ => rfl⟩
        · exact ⟨vm.refs, rfl, fun _ _ => rfl⟩
      obtain ⟨first, hdropped, hkept⟩ := hfirst
      rw [hdropped] at heq hothers
      refine ⟨refs, ?_, fun raw hfree => ?_⟩
      · rw [List.foldl_cons, hdropped, heq]
      · obtain ⟨hne, hfree⟩ := List.forall_mem_cons.mp hfree
        exact (hothers raw hfree).trans (hkept raw hne)

end Vm

/-! ### New references in the place of old ones -/

/-- The pairing of a machine with itself after the `count` references past the number `base` have
been given back and as many have been taken past the number `last`. -/
def Pairing.reopened (base last count : Nat) (hle : base + 8 * count ≤ last) : Pairing where
  stands h k := (∃ n, n < count ∧ h.raw = base + 8 * (n + 1) ∧ k.raw = last + 8 * (n + 1)) ∨
    (k.raw = h.raw ∧ h.raw ≤ last ∧ ∀ n, n < count → h.raw ≠ base + 8 * (n + 1)) ∨
    (last < h.raw ∧ k.raw = h.raw + 8 * count)
  limit := base
  old hh := .inr (.inl ⟨rfl, by omega, fun n _ => by omega⟩)
  unique := by
    intro h k k' hk hk'
    suffices hraw : k.raw = k'.raw from congrArg Handle.mk hraw
    rcases hk with ⟨n, hn, hh, hk⟩ | ⟨hk, hh, hfree⟩ | ⟨hh, hk⟩ <;>
      rcases hk' with ⟨m, hm, hh', hk'⟩ | ⟨hk', hh', hfree'⟩ | ⟨hh', hk'⟩
    · omega
    · exact absurd hh (hfree' n hn)
    · omega
    · exact absurd hh' (hfree m hm)
    all_goals omega
  unique' := by
    intro h h' k hk hk'
    suffices hraw : h.raw = h'.raw from congrArg Handle.mk hraw
    rcases hk with ⟨n, hn, hh, hk⟩ | ⟨hk, hh, hfree⟩ | ⟨hh, hk⟩ <;>
      rcases hk' with ⟨m, hm, hh', hk'⟩ | ⟨hk', hh', hfree'⟩ | ⟨hh', hk'⟩ <;>
      omega

/-- A machine on which references are still open, and the same after they have been given back and
taken anew. -/
theorem Vm.Paired.reopened {vm near : Vm} {ids : List HeapId} (hb : near.RefsBounded)
    (hle : vm.lastRef + 8 * ids.length ≤ near.lastRef)
    (hopen : ∀ {n} (hn : n < ids.length),
      near.refs.get? (vm.lastRef + 8 * (n + 1)) = some ⟨ids[n], .localRef⟩) :
    near.Paired (.reopened vm.lastRef near.lastRef ids.length hle)
      (Vm.newLocals ids ((vm.newLocals ids).1.reverse.foldl dropLocal near)).2 := by
  obtain ⟨refs, hdropped, hkept⟩ := dropLocals_eq (vm.newLocals ids).1.reverse near
  rw [hdropped]
  have hlast : (Vm.newLocals ids { near with refs }).2.lastRef = near.lastRef + 8 * ids.length :=
    lastRef_newLocals ids { near with refs }
  refine ⟨?_, fun {h k} hk => ?_, fun {n} hn => .inr (.inr ⟨Nat.lt_add_of_pos_right hn, ?_⟩), ?_⟩
  · obtain ⟨later, lastRef, heq⟩ := newLocals_eq ids { near with refs }
    exact ⟨later, lastRef, heq⟩
  · rcases hk with ⟨n, hn, hh, hk⟩ | ⟨hk, hh, hfree⟩ | ⟨hh, hk⟩
    · rw [hh, hk, hopen hn]
      exact get?_newLocals_new hn { near with refs }
    · rw [hk, get?_newLocals_old { near with refs } ids hh]
      refine hkept h.raw fun g hg => ?_
      rw [List.mem_reverse, newLocals_fst] at hg
      obtain ⟨n, hn, rfl⟩ := List.mem_map.mp hg
      exact (hfree n (List.mem_range.mp hn)).symm
    · -- neither has been made yet
      have hunused : ∀ {vm : Vm} {raw : Nat}, vm.RefsBounded → vm.lastRef < raw →
          vm.refs.get? raw = none := fun hb hlt =>
        Option.eq_none_iff_forall_ne_some.mpr fun ref href =>
          Nat.lt_irrefl _ (Nat.lt_of_lt_of_le hlt (hb _ ref href))
      have hages : near.Ages { near with refs } := hdropped ▸ (keeps_dropLocals _ near).toAges
      have hbounded := (hages.trans (ages_newLocals ids { near with refs })).bounded hb
      rw [hunused hb hh, hunused hbounded]
      omega
  · rw [hlast, Nat.add_right_comm]
  · rw [hlast]
    exact ⟨Nat.le_trans (Nat.le_add_right _ _) hle, Nat.le_trans (Nat.le_add_right _ _)
      (Nat.le_trans hle (Nat.le_add_right _ _))⟩

/-- The references that have been given back, and those taken in their place. -/
theorem Pairing.stands_reopened {vm : Vm} (near : Vm) {ids : List HeapId}
    (hle : vm.lastRef + 8 * ids.length ≤ near.lastRef) :
    List.Forall₂ (Pairing.reopened vm.lastRef near.lastRef ids.length hle).stands
      (vm.newLocals ids).1
      (Vm.newLocals ids ((vm.newLocals ids).1.reverse.foldl dropLocal near)).1 := by
  obtain ⟨refs, hdropped, -⟩ := Vm.dropLocals_eq (vm.newLocals ids).1.reverse near
  rw [hdropped, Vm.newLocals_fst, Vm.newLocals_fst, List.forall₂_map_left_iff,
    List.forall₂_map_right_iff, List.forall₂_same]
  exact fun n hn => .inl ⟨n, List.mem_range.mp hn, rfl, rfl⟩

/-- Two tables of the same entries are alike if each entry is like itself. -/
theorem Table.Alike.same {κ α : Type} [DecidableEq κ] {R : α → α → Prop} {t : Table κ α}
    (hR : ∀ {k a}, t.get? k = some a → R a a) : t.Alike R t := by
  refine ⟨fun k => ?_⟩
  cases hentry : t.get? k with
  | none => exact .none
  | some a => exact .some (hR hentry)

/-- What the agent holds stands for itself where only passing references are exchanged, so the agent
is in step with itself. -/
theorem Agent.Paired.reopened {a near : Agent} {ids : List HeapId} (hb : near.vm.RefsBounded)
    (hholds : HoldsSoundly near) (hle : a.vm.lastRef + 8 * ids.length ≤ near.vm.lastRef)
    (hopen : ∀ {n} (hn : n < ids.length),
      near.vm.refs.get? (a.vm.lastRef + 8 * (n + 1)) = some ⟨ids[n], .localRef⟩) :
    near.Paired (.reopened a.vm.lastRef near.vm.lastRef ids.length hle)
      (near.setVm (Vm.newLocals ids
        ((a.vm.newLocals ids).1.reverse.foldl dropLocal near.vm)).2) := by
  have hself : ∀ {x h}, near.held? x = some h →
      (Pairing.reopened a.vm.lastRef near.vm.lastRef ids.length hle).stands h h := by
    intro x h hx
    obtain ⟨object, hglobal⟩ := hholds.valid hx
    refine .inr (.inl ⟨rfl, hb _ _ hglobal.get?, fun n hn hraw => ?_⟩)
    have hlocal := hopen hn
    rw [← hraw, hglobal.get?] at hlocal
    cases hlocal
  refine ⟨.reopened hb hle hopen, rfl, ⟨rfl, .same fun {id entry} hentry => ⟨?_, rfl⟩⟩,
    ⟨rfl, List.forall₂_same.mpr fun r _ => .refl r, rfl, .same fun {key n} hheld => ⟨rfl, ?_⟩⟩, rfl⟩
  · refine hself (x := .identifier id) ?_
    rw [Agent.held?, Tracker.global?, hentry]
    rfl
  · cases hthread : n.thread with
    | none => exact .none
    | some h =>
        refine .some (hself (x := .notification key) ?_)
        rw [Agent.held?, hheld, Option.bind_some, hthread]

/-! ### The same books -/

/-- Two agents that differ at most in the numbers of references: the machine is the same apart from
them, the same identifiers are in use, have been handed out as often and designate the same
objects. -/
structure Agent.SameBooks (a b : Agent) : Prop where
  world : ∃ refs lastRef, b.vm = { a.vm with refs, lastRef }
  nextId : b.tracker.nextId = a.tracker.nextId
  references : ∀ id, (b.tracker.entries.get? id).map Tracked.references =
    (a.tracker.entries.get? id).map Tracked.references
  targets : ∀ id, b.tracker.target? b.vm id = a.tracker.target? a.vm id

namespace Agent.SameBooks

variable {a b c : Agent}

theorem refl (a : Agent) : a.SameBooks a :=
  ⟨⟨a.vm.refs, a.vm.lastRef, rfl⟩, rfl, fun _ => rfl, fun _ => rfl⟩

theorem trans (h : a.SameBooks b) (h' : b.SameBooks c) : a.SameBooks c where
  world := by
    obtain ⟨refs, lastRef, heq⟩ := h.world
    obtain ⟨refs', lastRef', heq'⟩ := h'.world
    exact ⟨refs', lastRef', heq'.trans (by rw [heq])⟩
  nextId := h'.nextId.trans h.nextId
  references := fun id => (h'.references id).trans (h.references id)
  targets := fun id => (h'.targets id).trans (h.targets id)

/-- Agents in step have the same books. -/
theorem of_paired {p : Pairing} (hp : a.Paired p b) : a.SameBooks b where
  world := hp.vm.world
  nextId := hp.tracker.nextId
  references := by
    intro id
    have hentry := hp.tracker.entries.get? id
    generalize a.tracker.entries.get? id = entry at hentry
    generalize b.tracker.entries.get? id = entry' at hentry
    cases hentry with
    | none => rfl
    | some he => exact congrArg some he.references
  targets := hp.target?

end Agent.SameBooks

/-! ### Commands that take references -/

/-- Runs a command with references to objects, and gives them back. -/
def Command.opening {α : Type} (objects : List HeapId) (x : List Handle → Command α) :
    Command α := do
  let hs ← touch (Vm.newLocals objects)
  withLocals hs.reverse (x hs)

section Opening

variable {α β : Type} {a : Agent} {objects : List HeapId}

theorem perform_opening (objects : List HeapId) (x : List Handle → Command α) (a : Agent) :
    (opening objects x).perform a =
      (withLocals (a.vm.newLocals objects).1.reverse (x (a.vm.newLocals objects).1)).perform
        (a.setVm (a.vm.newLocals objects).2) := rfl

theorem Agent.InShape.newLocals (h : a.InShape) (hobjects : a.vm.Has objects) :
    (a.setVm (a.vm.newLocals objects).2).InShape :=
  h.setVm ((Vm.ages_newLocals objects a.vm).bounded h.refs) (h.closed.newLocals hobjects)

theorem stays_holdsSoundly : Agent.Stays HoldsSoundly := fun hx hshape hholds =>
  hholds.unfolds hshape.toOrderly (hx.evolves hshape.toOrderly).unfolds

/-- A command that gives its references back half-way and goes on with new ones comes to the same as
one that keeps them. -/
theorem opening_again (hshape : a.InShape) (hholds : HoldsSoundly a) (hobjects : a.vm.Has objects)
    {x : List Handle → Command α} {y : α → List Handle → Command β}
    (hx : ∀ hs, Looks Control.Any (x hs))
    (hy : ∀ r {p : Pairing} {hs ks}, List.Forall₂ p.stands hs ks →
      Lockstep (Agent.Paired p) Eq (y r hs) (y r ks)) :
    Alike Agent.SameBooks Eq ((opening objects fun hs => x hs >>= fun r => y r hs).perform a)
      ((opening objects x >>= fun r => opening objects (y r)).perform a) := by
  have hopened := hshape.newLocals hobjects
  have hkeeps := Vm.keeps_newLocals objects hshape.refs
  have hheld : HoldsSoundly (a.setVm (a.vm.newLocals objects).2) :=
    hholds.change hshape.toOrderly (.machine hkeeps)
  have hlooks := hx (a.vm.newLocals objects).1
  have hnear := hopened.looks hlooks
  have hstill := stays_holdsSoundly hlooks hopened hheld
  have hlent := hlooks.balanced.opened hopened.refs
  rw [perform_bind (opening objects x), perform_opening, perform_opening, perform_withLocals,
    perform_withLocals, perform_bind]
  cases hperform : (x (a.vm.newLocals objects).1).perform (a.setVm (a.vm.newLocals objects).2) with
  | mk outcome near =>
      rw [hperform] at hnear hstill hlent
      cases outcome with
      | error stop => exact .stops (.refl _)
      | ok r =>
          have hle : a.vm.lastRef + 8 * objects.length ≤ near.vm.lastRef :=
            Nat.le_trans (Nat.le_of_eq (Vm.lastRef_newLocals objects a.vm).symm) hlent.ages.lastRef_le
          have hpaired := Agent.Paired.reopened (a := a) hnear.refs hstill hle fun hn =>
            ((hlent.locals _ _).mp (Vm.get?_newLocals_new hn a.vm)).1
          have hstands := Pairing.stands_reopened near.vm hle
          have halike := (lockstep_withLocals (List.rel_reverse hstands) (hy r hstands)).alike hpaired
          exact halike.mono .of_paired

end Opening

end DebugAgent
