import DebugAgent.Table
import Mathlib.Data.List.Perm.Basic

/-!
# Tables and their order

A table has an order, the one in which its keys were added, so two tables that say the same of every
key need not be equal.  They are equal if their keys stand in the same order, and for that it is enough
that both have been made from one table by leaving entries out.
-/

namespace DebugAgent

namespace Table

variable {κ α : Type} [DecidableEq κ] {t u v : Table κ α} {k j : κ}

/-! ### Keys that are forgotten -/

/-- The table without keys. -/
def empty : Table κ α := {}

theorem eq_empty (hnone : ∀ k, t.get? k = none) : t = empty := by
  apply Table.ext
  refine List.eq_nil_iff_forall_not_mem.mpr fun e he => ?_
  cases (hnone e.1).symm.trans (mem_entries.mp he)

theorem erase_of_none (hnone : t.get? k = none) : t.erase k = t := by
  apply Table.ext
  refine List.filter_eq_self.mpr fun e he => decide_eq_true ?_
  rintro rfl
  cases hnone.symm.trans (mem_entries.mp he)

/-- What a key is given is forgotten with it. -/
theorem erase_insert_self (t : Table κ α) (k : κ) (value : α) :
    (t.insert k value).erase k = t.erase k := by
  apply Table.ext
  rw [insert]
  split
  · have hlist : ∀ es : List (κ × α),
        ((es.map fun e => if e.1 = k then (k, value) else e).filter fun e => e.1 ≠ k) =
          es.filter fun e => e.1 ≠ k := by
      intro es
      induction es with
      | nil => rfl
      | cons e es ih =>
          rw [List.map_cons, List.filter_cons, List.filter_cons, ih]
          by_cases hkey : e.1 = k <;> simp [hkey]
    exact hlist t.entries
  · simp [erase]

/-- It makes no difference whether a key is forgotten before or after another one is added. -/
theorem erase_insert_of_ne (hnew : t.get? k = none) (hne : j ≠ k) (value : α) :
    (t.insert k value).erase j = (t.erase j).insert k value := by
  have hleft : ¬ t.contains k := by simp [contains, hnew]
  have hright : ¬ (t.erase j).contains k := by simp [contains, get?_erase_of_ne (Ne.symm hne), hnew]
  rw [insert, dif_neg hleft, insert, dif_neg hright]
  apply Table.ext
  simp [erase, Ne.symm hne]

/-! ### Keys in order -/

theorem mem_keys : k ∈ t.keys ↔ (t.get? k).isSome := by
  rw [keys, List.mem_map, Option.isSome_iff_exists]
  constructor
  · rintro ⟨⟨key, value⟩, hmem, rfl⟩
    exact ⟨value, mem_entries.mp hmem⟩
  · rintro ⟨value, hvalue⟩
    exact ⟨(k, value), mem_entries.mpr hvalue, rfl⟩

theorem keys_insert_of_some {value : α} (h : t.get? k = some value) (other : α) :
    (t.insert k other).keys = t.keys := by
  have hold : t.contains k := by simp [contains, h]
  rw [insert, dif_pos hold]
  exact keys_map k other t.entries

theorem keys_erase_sublist (t : Table κ α) (k : κ) : (t.erase k).keys.Sublist t.keys :=
  List.filter_sublist.map Prod.fst

/-- A table is its keys, in order, and what it says of them. -/
theorem eq_of_keys_eq (hkeys : t.keys = u.keys) (hget : ∀ k, t.get? k = u.get? k) : t = u := by
  have hlisted : ∀ w : Table κ α,
      w.entries.map (fun e => (e.1, some e.2)) = w.keys.map fun k => (k, w.get? k) := by
    intro w
    rw [keys, List.map_map]
    exact List.map_congr_left fun e he => by simp [mem_entries.mp he]
  have hinjective : Function.Injective fun e : κ × α => (e.1, some e.2) := by
    rintro ⟨k, x⟩ ⟨l, y⟩ heq
    simpa using heq
  apply Table.ext
  apply List.map_injective_iff.mpr hinjective
  rw [hlisted, hlisted, hkeys]
  exact List.map_congr_left fun k _ => by rw [hget]

/-- What two tables keep of a third one, in its order, is the same if they say the same. -/
theorem eq_of_sublist (ht : t.keys.Sublist v.keys) (hu : u.keys.Sublist v.keys)
    (hget : ∀ k, t.get? k = u.get? k) : t = u := by
  have hmem : ∀ k, k ∈ t.keys ↔ k ∈ u.keys := fun k => by rw [mem_keys, mem_keys, hget]
  have hperm : t.keys.Perm u.keys := (List.perm_ext_iff_of_nodup t.distinct u.distinct).mpr hmem
  exact eq_of_keys_eq ((List.Nodup.perm_iff_eq_of_sublist v.distinct ht hu).mp hperm) hget

end Table

end DebugAgent
