/-!
# Keyed tables

A finite map as the list of its entries, oldest key first and no key twice.  Replacing the value of
a key keeps its place, so a table whose keys are handed out in increasing order lists them in that
order.
-/

namespace DebugAgent

/-- A finite map from keys to values. -/
@[ext] structure Table (κ α : Type) where
  entries : List (κ × α) := []
  distinct : (entries.map Prod.fst).Nodup := by exact List.nodup_nil
  deriving Repr

namespace Table

variable {κ α : Type} [DecidableEq κ]

def get? (t : Table κ α) (k : κ) : Option α := t.entries.lookup k

def contains (t : Table κ α) (k : κ) : Bool := (t.get? k).isSome

def keys (t : Table κ α) : List κ := t.entries.map Prod.fst

def values (t : Table κ α) : List α := t.entries.map Prod.snd

def size (t : Table κ α) : Nat := t.entries.length

theorem keys_map (k : κ) (a : α) (es : List (κ × α)) :
    (es.map fun e => if e.1 = k then (k, a) else e).map Prod.fst = es.map Prod.fst := by
  rw [List.map_map]
  apply List.map_congr_left
  intro e _
  by_cases h : e.1 = k <;> simp [h]

theorem lookup_eq_none {k : κ} {es : List (κ × α)} (h : es.lookup k = none) :
    k ∉ es.map Prod.fst := by
  intro hmem
  obtain ⟨e, he, rfl⟩ := List.mem_map.mp hmem
  exact absurd h (by simpa [List.lookup_eq_none_iff] using ⟨e.2, he⟩)

theorem distinct_concat {t : Table κ α} {k : κ} {a : α} (h : ¬t.contains k) :
    ((t.entries ++ [(k, a)]).map Prod.fst).Nodup := by
  have hnew : k ∉ t.entries.map Prod.fst := lookup_eq_none (Option.not_isSome_iff_eq_none.mp h)
  rw [List.map_append]
  refine List.nodup_append.mpr ⟨t.distinct, by simp, ?_⟩
  intro key hkey last hlast heq
  rw [heq, List.mem_singleton.mp hlast] at hkey
  exact hnew hkey

/-- Gives a key a value, in place of the one it had. -/
def insert (t : Table κ α) (k : κ) (a : α) : Table κ α :=
  if h : t.contains k then
    ⟨t.entries.map fun e => if e.1 = k then (k, a) else e,
      (keys_map k a t.entries).symm ▸ t.distinct⟩
  else ⟨t.entries ++ [(k, a)], distinct_concat h⟩

def erase (t : Table κ α) (k : κ) : Table κ α :=
  ⟨t.entries.filter fun e => e.1 ≠ k, t.distinct.sublist (List.filter_sublist.map Prod.fst)⟩

/-! ### Looking up after a change -/

theorem lookup_map_of_ne {k k' : κ} {a : α} (h : k' ≠ k) (es : List (κ × α)) :
    (es.map fun e => if e.1 = k then (k, a) else e).lookup k' = es.lookup k' := by
  induction es with
  | nil => rfl
  | cons e es ih =>
      obtain ⟨key, value⟩ := e
      by_cases hk : key = k
      · subst hk
        simp [List.lookup_cons, ih, beq_eq_false_iff_ne.mpr h]
      · simp [List.lookup_cons, ih, hk]

theorem lookup_map_self {k : κ} {a : α} {es : List (κ × α)} (h : (es.lookup k).isSome) :
    (es.map fun e => if e.1 = k then (k, a) else e).lookup k = some a := by
  induction es with
  | nil => simp at h
  | cons e es ih =>
      obtain ⟨key, value⟩ := e
      by_cases hk : key = k
      · simp [hk]
      · have hne : (k == key) = false := beq_eq_false_iff_ne.mpr (Ne.symm hk)
        simp only [List.lookup_cons, hne] at h
        simp [List.lookup_cons, hk, hne, ih h]

@[simp] theorem get?_insert_self (t : Table κ α) (k : κ) (a : α) :
    (t.insert k a).get? k = some a := by
  unfold insert
  split
  · rename_i h
    exact lookup_map_self h
  · rename_i h
    have hnone : t.entries.lookup k = none := Option.not_isSome_iff_eq_none.mp h
    rw [get?, List.lookup_append, hnone]
    simp

/-- Giving a key a value leaves the values of the other keys alone. -/
theorem get?_insert_of_ne {t : Table κ α} {k k' : κ} {a : α} (h : k' ≠ k) :
    (t.insert k a).get? k' = t.get? k' := by
  unfold insert
  split
  · exact lookup_map_of_ne h t.entries
  · simp [get?, List.lookup_append, List.lookup_cons, beq_eq_false_iff_ne.mpr h]

theorem get?_insert (t : Table κ α) (k : κ) (a : α) (k' : κ) :
    (t.insert k a).get? k' = if k' = k then some a else t.get? k' := by
  split
  · rename_i h
    rw [h, get?_insert_self]
  · rename_i h
    exact get?_insert_of_ne h

theorem values_insert_of_none {t : Table κ α} {k : κ} (h : t.get? k = none) (a : α) :
    (t.insert k a).values = t.values ++ [a] := by
  have hnew : ¬t.contains k := by simp [contains, h]
  simp [values, insert, hnew]

/-- Selecting entries by their keys keeps the values of the keys selected. -/
theorem lookup_filter (keep : κ → Bool) (k : κ) (es : List (κ × α)) :
    (es.filter fun e => keep e.1).lookup k = if keep k then es.lookup k else none := by
  induction es with
  | nil => simp
  | cons e es ih =>
      obtain ⟨key, value⟩ := e
      rw [List.filter_cons]
      by_cases hk : k = key
      · subst hk
        cases hkeep : keep k <;> simp [hkeep, ih]
      · have hne : (k == key) = false := beq_eq_false_iff_ne.mpr hk
        cases hkeep : keep key <;> simp [List.lookup_cons, hne, ih]

/-- A key that had a value still has one. -/
theorem isSome_get?_insert {t : Table κ α} {k k' : κ} {a : α} (h : (t.get? k').isSome) :
    ((t.insert k a).get? k').isSome := by
  rw [get?_insert]
  split
  · rfl
  · exact h

@[simp] theorem get?_erase_self (t : Table κ α) (k : κ) : (t.erase k).get? k = none :=
  (lookup_filter (fun key => key ≠ k) k t.entries).trans (by simp)

/-- Forgetting a key leaves the values of the other keys alone. -/
theorem get?_erase_of_ne {t : Table κ α} {k k' : κ} (h : k' ≠ k) :
    (t.erase k).get? k' = t.get? k' :=
  (lookup_filter (fun key => key ≠ k) k' t.entries).trans (by simp [h, get?])

theorem get?_erase (t : Table κ α) (k k' : κ) :
    (t.erase k).get? k' = if k' = k then none else t.get? k' := by
  split
  · rename_i h
    rw [h, get?_erase_self]
  · rename_i h
    exact get?_erase_of_ne h

/-- What is left after a key is forgotten was there before. -/
theorem get?_erase_eq_some {t : Table κ α} {k k' : κ} {a : α} :
    (t.erase k).get? k' = some a ↔ k' ≠ k ∧ t.get? k' = some a := by
  rw [get?_erase]
  split <;> simp [*]

/-- The entries of a table are its keys with their values. -/
theorem mem_entries {t : Table κ α} {k : κ} {a : α} : (k, a) ∈ t.entries ↔ t.get? k = some a := by
  have hlookup : ∀ es : List (κ × α), (es.map Prod.fst).Nodup →
      ((k, a) ∈ es ↔ es.lookup k = some a) := by
    intro es hdistinct
    induction es with
    | nil => simp
    | cons e es ih =>
        obtain ⟨key, value⟩ := e
        obtain ⟨hnew, hrest⟩ := List.nodup_cons.mp hdistinct
        by_cases hk : k = key
        · subst hk
          have hmem : (k, a) ∉ es := fun hmem => hnew (List.mem_map.mpr ⟨(k, a), hmem, rfl⟩)
          simp [hmem, eq_comm]
        · have hne : (k == key) = false := beq_eq_false_iff_ne.mpr hk
          simp [List.lookup_cons, hne, hk, ih hrest]
  exact hlookup t.entries t.distinct

/-- Forgetting a new key undoes its insertion. -/
theorem erase_insert {t : Table κ α} {k : κ} (h : t.get? k = none) (a : α) :
    (t.insert k a).erase k = t := by
  have hnew : ¬t.contains k := by simp [contains, h]
  have hkeys : ∀ e ∈ t.entries, e.1 ≠ k := fun e he heq =>
    lookup_eq_none h (List.mem_map.mpr ⟨e, he, heq⟩)
  apply Table.ext
  simpa [insert, hnew, erase] using hkeys

/-- Putting back the value that a key had undoes a replacement. -/
theorem insert_insert {t : Table κ α} {k : κ} {a : α} (h : t.get? k = some a) (b : α) :
    (t.insert k b).insert k a = t := by
  have hold : t.contains k := by simp [contains, h]
  have hreplaced : (t.insert k b).contains k := by simp [contains]
  apply Table.ext
  rw [insert, dif_pos hreplaced]
  simp only [insert, dif_pos hold, List.map_map]
  refine (List.map_congr_left fun e he => ?_).trans (List.map_id t.entries)
  obtain ⟨key, value⟩ := e
  by_cases hkey : key = k
  · subst hkey
    have hvalue : value = a := Option.some.inj ((mem_entries.mp he).symm.trans h)
    simp [hvalue]
  · simp [hkey]

end Table

end DebugAgent
