import DebugAgent.Proofs.ReadBack

/-!
# Kinds that are not told

Data is written without the name of its kind, and when it is read the first kind that takes it wins.
Any number is taken for a single at the latest.  So the kinds that are tried after it are never read
as far as they are numbers, whatever the tag of the value announces, and an integer may come back
rounded.
-/

namespace DebugAgent

open Json

/-- The single that is nearest to an integer. -/
def Single.nearest (n : Int) : Single :=
  ⟨.ofNat ((if n < 0 then Ieee.Format.single.signBit else 0) +
    Ieee.Format.single.nearest n.natAbs 1)⟩

namespace ValueData

/-- The integer that is written for the data. -/
def integer? : ValueData → Option Int
  | .byte v => some v.toInt
  | .char v => some v.toNat
  | .int v => some v.toInt
  | .long v => some v.toInt
  | .short v => some v.toInt
  | .object id => some id
  | _ => none

/-- What an integer is taken for when its kind is not told. -/
def ofInteger (n : Int) : ValueData :=
  if -0x80 ≤ n ∧ n ≤ 0x7f then .byte (.ofInt n)
  else if 0 ≤ n ∧ n ≤ 0xffff then .char (.ofNat n.toNat)
  else .float (.nearest n)

/-- The data as it comes back. -/
def untold (data : ValueData) : ValueData :=
  match data.integer? with
  | some n => ofInteger n
  | none => data

def InRange : ValueData → Prop
  | .object id => IsWord64 id
  | _ => True

def IsFloating : ValueData → Prop
  | .float _ | .double _ => True
  | _ => False

/-- The data is of a kind that is read at all. -/
def IsTold : ValueData → Prop
  | .byte _ | .char _ | .float _ | .boolean _ | .void => True
  | _ => False

/-- No kind that is tried earlier takes the data. -/
def KeepsKind : ValueData → Prop
  | .byte _ | .boolean _ | .void => True
  | .char v => 0x80 ≤ v.toNat
  | _ => False

variable {data : ValueData} {n : Int}

theorem toJson_of_integer? (h : data.integer? = some n) : data.toJson = .ofInt n := by
  cases data <;> cases h <;> rfl

theorem integer?_inRange (hrange : data.InRange) (h : data.integer? = some n) :
    -0x8000000000000000 ≤ n ∧ n ≤ 0xffffffffffffffff := by
  cases data with
  | byte v | int v | long v | short v =>
      cases h
      have hleast := v.le_toInt
      have hgreatest := v.toInt_lt
      omega
  | char v =>
      cases h
      have hgreatest := v.toNat_lt
      omega
  | object id =>
      cases h
      rw [InRange, IsWord64] at hrange
      omega
  | float | double | boolean | void => cases h

theorem single?_of_integer? {digits : Numeral} (h : digits.integer? = some n) :
    digits.single? = some ((if n < 0 then Ieee.Format.single.signBit else 0) +
      Ieee.Format.single.nearest n.natAbs 1) := by
  rw [Numeral.single?, h]

theorem ofJson?_integer {digits : Numeral} (h : digits.integer? = some n) :
    ofJson? (.number digits) = some (ofInteger n) := by
  have hsingle := single?_of_integer? h
  rw [ofJson?, readers, List.findSome?_cons, ofInteger]
  by_cases hbyte : -0x80 ≤ n ∧ n ≤ 0x7f
  · simp [intBetween, h, hbyte]
  rw [List.findSome?_cons]
  by_cases hchar : 0 ≤ n ∧ n ≤ 0xffff
  · simp [intBetween, h, hbyte, hchar]
  rw [List.findSome?_cons]
  simp [intBetween, h, hbyte, hchar, numeral?, hsingle, Single.nearest]

/-- A number that is no integer is taken for a single. -/
theorem ofJson?_single {digits : Numeral} (hinteger : digits.integer? = none) {word : Nat}
    (hsingle : digits.single? = some word) :
    ofJson? (.number digits) = some (.float ⟨.ofNat word⟩) := by
  simp [ofJson?, readers, intBetween, numeral?, hinteger, hsingle]

/-- Where no single is read no double is read either, and no kind takes the number. -/
theorem ofJson?_of_not_single {digits : Numeral} (hinteger : digits.integer? = none)
    (hsingle : digits.single? = none) : ofJson? (.number digits) = none := by
  have hdouble : digits.double? = none := by
    rw [Numeral.single?, hinteger] at hsingle
    exact Option.map_eq_none_iff.mp hsingle
  simp [ofJson?, readers, numeral?, intBetween, int32?, word64?, bool?, isUnit, hinteger, hsingle,
    Numeral.doubleWord?, hdouble]

theorem isTold_ofInteger (n : Int) : (ofInteger n).IsTold := by
  rw [ofInteger]
  split_ifs <;> trivial

theorem isTold_of_ofJson? {j : Json} (h : ofJson? j = some data) : data.IsTold := by
  cases j with
  | number digits =>
      cases hinteger : digits.integer? with
      | some n =>
          cases h.symm.trans (ofJson?_integer hinteger)
          exact isTold_ofInteger n
      | none =>
          cases hsingle : digits.single? with
          | none => cases h.symm.trans (ofJson?_of_not_single hinteger hsingle)
          | some word =>
              cases h.symm.trans (ofJson?_single hinteger hsingle)
              trivial
  | null | bool => cases h; trivial
  | string | array => cases h
  | object members => cases members <;> cases h

/-- What comes back is of a kind that is read, so nothing else comes back as itself. -/
theorem untold_ne_self (hinteger : data.integer? = some n) (hkind : ¬data.IsTold) :
    data.untold ≠ data := by
  intro hself
  rw [untold, hinteger] at hself
  exact hkind (hself ▸ isTold_ofInteger n)

theorem untold_eq_self_iff (hfloat : ¬data.IsFloating) :
    data.untold = data ↔ data.KeepsKind := by
  cases data with
  | byte v =>
      have hleast := v.le_toInt
      have hgreatest := v.toInt_lt
      have hread : ofInteger v.toInt = .byte (.ofInt v.toInt) := if_pos (by omega)
      exact iff_of_true (hread.trans (congrArg byte v.ofInt_toInt)) trivial
  | char v =>
      have hgreatest := v.toNat_lt
      by_cases hbyte : v.toNat ≤ 0x7f
      · have hread : ofInteger v.toNat = .byte (.ofInt v.toNat) := if_pos (by omega)
        refine iff_of_false (fun hself => ?_) (Nat.not_le_of_lt (Nat.lt_succ_of_le hbyte))
        cases hread.symm.trans hself
      · have hread : ofInteger v.toNat = .char (.ofNat v.toNat) :=
          (if_neg (by omega)).trans (if_pos (by omega))
        refine iff_of_true (hread.trans (congrArg char v.ofNat_toNat)) ?_
        exact Nat.succ_le_of_lt (Nat.lt_of_not_le hbyte)
  | int | long | short | object => exact iff_of_false (untold_ne_self rfl id) id
  | float | double => exact absurd trivial hfloat
  | boolean | void => exact iff_of_true rfl trivial

theorem ofJson?_toJson (hfloat : ¬data.IsFloating) (hrange : data.InRange) :
    ofJson? data.toJson = some data.untold := by
  cases hinteger : data.integer? with
  | some n =>
      have hnumber := (integer?_ofInt n).trans (if_pos (integer?_inRange hrange hinteger))
      rw [toJson_of_integer? hinteger, ofInt, ofJson?_integer hnumber, untold, hinteger]
  | none =>
      cases data with
      | boolean | void => rfl
      | float | double => exact absurd trivial hfloat
      | byte | char | int | long | short | object => cases hinteger

end ValueData

namespace Value

theorem isTold_of_ofJson? {j : Json} {v : Value} (h : ofJson? j = some v) : v.data.IsTold := by
  obtain ⟨members, -, h⟩ := Option.bind_eq_some_iff.mp h
  obtain ⟨tag, -, h⟩ := Option.bind_eq_some_iff.mp h
  obtain ⟨data, hdata, h⟩ := Option.bind_eq_some_iff.mp h
  obtain ⟨value, -, hread⟩ := Option.bind_eq_some_iff.mp hdata
  cases h
  exact ValueData.isTold_of_ofJson? hread

/-- The tag is read back as it was written, and the data as far as its kind can be told. -/
theorem ofJson?_toJson {v : Value} (hfloat : ¬v.data.IsFloating) (hrange : v.data.InRange) :
    ofJson? v.toJson = some ⟨v.tag, v.data.untold⟩ := by
  simp [ofJson?, toJson, Option.bind_eq_some_iff, ValueData.ofJson?_toJson hfloat hrange]

end Value

/-- A value whose data is no floating point number is read back with its tag.  An integer comes back
as a byte if it fits into one, else as a character if it fits, else as the nearest single, whatever
its kind was.  So a value is read back as itself exactly if its data is a byte, a truth value, void,
or a character from 128 on; and nothing is ever read as a short, an integer, a long, a double or an
object. -/
theorem value_read_untold {v : Value} (hfloat : ¬v.data.IsFloating) (hrange : v.data.InRange) :
    Value.ofJson? v.toJson = some ⟨v.tag, v.data.untold⟩ ∧
    (Value.ofJson? v.toJson = some v ↔ v.data.KeepsKind) ∧
    ∀ j w, Value.ofJson? j = some w → w.data.IsTold := by
  have hread := Value.ofJson?_toJson hfloat hrange
  refine ⟨hread, ?_, fun j w => Value.isTold_of_ofJson?⟩
  rw [hread, ← ValueData.untold_eq_self_iff hfloat, Option.some.injEq]
  exact ⟨congrArg Value.data, congrArg (Value.mk v.tag)⟩

/-- A long is read back as a single, and rounded. -/
theorem long_read_rounded :
    ¬(ValueData.long 16777217).IsFloating ∧ (ValueData.long 16777217).InRange ∧
    Value.ofJson? (Value.toJson ⟨.long, .long 16777217⟩) =
      some ⟨.long, .float ⟨0x4b800000⟩⟩ := by
  have hfloat : ¬(ValueData.long 16777217).IsFloating := id
  have hrange : (ValueData.long 16777217).InRange := trivial
  refine ⟨hfloat, hrange, ?_⟩
  have hread := (value_read_untold (v := ⟨.long, .long 16777217⟩) hfloat hrange).1
  exact hread.trans (by decide +kernel)

/-- The integer 5 is not read back as an integer. -/
theorem five_read_as_byte :
    ValueData.agrees .int (.int 5) = true ∧ ¬(ValueData.int 5).IsFloating ∧
    Value.ofJson? (Value.toJson ⟨.int, .int 5⟩) = some ⟨.int, .byte 5⟩ ∧
    Value.ofJson? (Value.toJson ⟨.int, .int 5⟩) ≠ some ⟨.int, .int 5⟩ := by
  refine ⟨rfl, id, ?_, ?_⟩
  · decide +kernel
  · decide +kernel

end DebugAgent
