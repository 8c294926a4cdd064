import DebugAgent.Proofs.Settled
import DebugAgent.Proofs.Unbroken

/-!
# Arrays read in parts

A run of elements is checked against the length of the array before any of them is read, by
comparisons of integers that cannot overflow.  Elements of primitive types are read at once, and
references one after another; but an array keeps its elements, and an element that has been told is
settled.  So once an array has been read as a whole, every run of its elements is the part of the
whole that it says.
-/

namespace DebugAgent

open DebugAgent.Action Command Tracking Reading

/-! ### Elements -/

/-- What is read of an element at a kind of type: primitive values count as null where references
are read, and references as zero where primitive values are read. -/
def Stored.asElement : ValueKind → Stored → Stored
  | .object, .primitive _ => .reference none
  | .object, .reference target => .reference target
  | _, .primitive v => .primitive v
  | kind, .reference _ => .zero kind

namespace Vm

variable {vm : Vm} {h : Handle} {array : HeapId} {stored : Stored}

theorem elements?_eq (htarget : vm.target? h = some array) :
    (vm.elements? h).getD [] = vm.elementsAt array := by
  rw [elements?, object?, htarget, Option.bind_some, elementsAt]
  cases vm.heap[array]? with
  | none => rfl
  | some held =>
      obtain ⟨cls, tag, body⟩ := held
      cases body <;> rfl

/-- Something that has an element is an array. -/
theorem elements?_of_getElem? (htarget : vm.target? h = some array) {index : Nat}
    (hstored : (vm.elementsAt array)[index]? = some stored) :
    vm.elements? h = some (vm.elementsAt array) := by
  rw [← elements?_eq htarget] at hstored ⊢
  cases helements : vm.elements? h with
  | none =>
      rw [helements] at hstored
      cases hstored
  | some elements => rfl

/-- The machine gives out an element as a reference. -/
theorem perform_arrayElement {ε : Type} (hc : vm.Closed) (htarget : vm.target? h = some array)
    {index : Nat} (hstored : (vm.elementsAt array)[index]? = some stored) :
    ∃ element, .object element = (vm.giveOut (stored.asElement .object)).1 ∧
      (arrayElement h index : Action Vm ε _).perform vm =
        (.ok element, (vm.giveOut (stored.asElement .object)).2) := by
  have helements := elements?_of_getElem? htarget hstored
  have hindex : ¬ (index : Int) < 0 := Int.not_lt.mpr (Int.natCast_nonneg index)
  simp only [arrayElement, perform_bind, perform_elementsBehind hc, helements, Option.bind_some,
    if_neg hindex, Int.toNat_natCast, hstored]
  rcases stored with v | _ | object
  · exact ⟨.null, rfl, rfl⟩
  · exact ⟨.null, rfl, rfl⟩
  · exact ⟨(vm.newLocal object).1, rfl, rfl⟩

end Vm

section Elements

variable {a b : Agent} {h : Handle} {array : HeapId} {tag : TypeTag} {stored : Stored}
  {value : Value} {index : Nat}

theorem bind_readElement (h : Handle) (tag : TypeTag) (index : Int) :
    readElement h tag index =
      (RawValue.object <$> clearing (native (Vm.arrayElement h index))) >>= wrap tag := by
  rw [readElement, map_eq_pure_bind, bind_assoc]
  rfl

/-- An element is given out, and what it stands for is at hand. -/
theorem element_given (hshape : a.InShape) (htarget : a.vm.target? h = some array)
    (hstored : (a.vm.elementsAt array)[index]? = some stored) : ∃ raw near,
    (RawValue.object <$> clearing (native (Vm.arrayElement h index))).perform a = (.ok raw, near) ∧
      near.InShape ∧ near.vm.behind? raw = some (stored.asElement .object) ∧ Recalls a near := by
  obtain ⟨element, hraw, helement⟩ := Vm.perform_arrayElement (ε := ProtocolError) hshape.closed
    htarget hstored
  have hobjects : a.vm.Has (stored.asElement .object).objects := by
    have hheld := hshape.closed.elements? (Vm.elements?_of_getElem? htarget hstored)
      (List.mem_of_getElem? hstored)
    rcases stored with _ | _ | _
    · exact Vm.has_nil
    · exact hheld
    · exact hheld
  let near := a.setVm (a.vm.giveOut (stored.asElement .object)).2
  have hread : (native (Vm.arrayElement h index)).perform a = (.ok element, near) := by
    rw [native, perform_within, helement]
  have hnear : near.InShape := hshape.giveOut hobjects
  refine ⟨.object element, near.setVm near.vm.clearException, ?_, ?_, ?_, ?_⟩
  · rw [perform_map, perform_clearing hread]
    rfl
  · exact hnear.setVm hnear.refs hnear.closed.clearException
  · rw [hraw]
    exact Vm.behind?_giveOut a.vm (stored.asElement .object)
  · have hglances := (Vm.glance_giveOut (stored.asElement .object) a.vm).tail .clearException
    exact .glances hshape.toInOrder hglances

theorem readElement_settles (hshape : a.InShape) (htarget : a.vm.target? h = some array)
    (hstored : (a.vm.elementsAt array)[index]? = some stored)
    (hperform : (readElement h tag index).perform a = (.ok value, b)) :
    b.Settles tag (stored.asElement .object) value := by
  obtain ⟨raw, near, hread, hnear, hbehind, -⟩ := element_given hshape htarget hstored
  rw [bind_readElement] at hperform
  exact reading_settles hread hnear hbehind hperform

theorem readElement_again (hshape : a.InShape) (htarget : a.vm.target? h = some array)
    (hstored : (a.vm.elementsAt array)[index]? = some stored)
    (hsettled : a.Settles tag (stored.asElement .object) value) :
    ((readElement h tag index).perform a).1 = .ok value := by
  obtain ⟨raw, near, hread, hnear, hbehind, hrecalls⟩ := element_given hshape htarget hstored
  rw [bind_readElement]
  exact reading_again hread hnear hbehind hrecalls hsettled

/-! ### Runs of elements -/

/-- How the elements of an array are read, by the signature of its class. -/
def elementType (signature : String) : Except ProtocolError (TypeTag × ValueKind) :=
  match Signature.componentSignature signature with
  | .error cause => .error cause.toProtocol
  | .ok component =>
      match declaredTag component with
      | .error cause => .error cause
      | .ok tag => tag.valueKind.map fun kind => (tag, kind)

/-- Reads a run of elements at a type. -/
def readRun (array : Handle) (tag : TypeTag) (kind : ValueKind) (first length : Int) :
    Command (List Value) :=
  if kind = .object then
    (List.range length.toNat).mapM fun (offset : Nat) => readElement array tag (first + offset)
  else do
    let region ← clearing (native (Vm.arrayRegion array kind first length))
    Action.guard (region.length = length.toNat) .internal
    Action.ofExcept (region.mapM (regionValue tag))

theorem looks_readRun (array : Handle) (tag : TypeTag) (kind : ValueKind) (first length : Int) :
    Looks Control.Any (readRun array tag kind first length) := by
  refine looks_ite (looks_mapM (fun _ => looks_readElement array tag _) _) ?_
  exact .bind (.arrayRegion array kind first length) fun _ => .bind (looks_guard _ _) fun _ =>
    looks_ofExcept _

theorem isObject_iff {kind : ValueKind} (hkind : tag.valueKind = .ok kind) :
    tag.isObject ↔ kind = .object := by
  cases tag <;> cases hkind <;> decide

theorem readArray_eq (h : Handle) (signature : String) (first length : Int) :
    (readArray h signature first length).perform a =
      match elementType signature with
      | .error cause => (.error (.refused cause), a)
      | .ok (tag, kind) => (readRun h tag kind first length).perform a := by
  rw [readArray, elementType, perform_bind]
  cases Signature.componentSignature signature with
  | error cause => rfl
  | ok component =>
      simp only [Action.ofExcept, perform_inspect, mapError_ok, perform_bind]
      cases declaredTag component with
      | error cause => rfl
      | ok tag =>
          simp only [mapError_ok]
          cases hkind : tag.valueKind with
          | error cause =>
              have hvoid : tag.isObject = false := by cases tag <;> first | rfl | cases hkind
              simp only [hvoid, Bool.false_eq_true, if_false, perform_bind, perform_inspect]
              rfl
          | ok kind =>
              have hobject := isObject_iff hkind
              simp only [readRun, Except.map]
              by_cases hreference : kind = .object
              · rw [if_pos (hobject.mpr hreference), if_pos hreference]
              · rw [if_neg fun h => hreference (hobject.mp h), if_neg hreference]
                simp only [perform_bind, perform_inspect, mapError_ok, Action.ofExcept]

/-- A run of elements by their places, and the list of them. -/
theorem forall₂_range_iff {α β : Type} {R : α → β → Prop} {xs : List α} {ys : List β}
    {first count : Nat} (hfits : first + count ≤ xs.length) :
    List.Forall₂ (fun offset y => ∃ x, xs[first + offset]? = some x ∧ R x y) (List.range count) ys ↔
      List.Forall₂ R ((xs.drop first).take count) ys := by
  have hplaces : (List.range count).map (fun offset => xs[first + offset]?) =
      ((xs.drop first).take count).map some := by
    apply List.ext_getElem
    · simp only [List.length_map, List.length_range, List.length_take, List.length_drop]
      omega
    · intro n hn _
      have hlt : n < count := by simpa using hn
      simp [List.getElem?_eq_getElem (show first + n < xs.length by omega)]
  have hrange := List.forall₂_map_left_iff (f := fun offset => xs[first + offset]?)
    (R := fun x? y => ∃ x, x? = some x ∧ R x y) (l := List.range count) (u := ys)
  rw [← hrange, hplaces, List.forall₂_map_left_iff]
  simp

/-- An element as one of a run of primitive values. -/
def Stored.inRegion (kind : ValueKind) : Stored → RawValue
  | .primitive v => .primitive v
  | .reference _ => .zero kind

/-- A run of primitive values that lies in the array is got as it is. -/
theorem perform_region (hc : a.vm.Closed) (htarget : a.vm.target? h = some array)
    {first length : Int} (hfirst : 0 ≤ first) (hlength : 0 ≤ length)
    (hfits : first + length ≤ (a.vm.elementsAt array).length) (kind : ValueKind) : ∃ near,
    (clearing (native (Vm.arrayRegion h kind first length))).perform a =
      (.ok ((((a.vm.elementsAt array).drop first.toNat).take length.toNat).map
        (Stored.inRegion kind)), near) := by
  have hregion : ((Vm.arrayRegion h kind first length : Action Vm ProtocolError _).perform a.vm).1 =
      .ok ((((a.vm.elementsAt array).drop first.toNat).take length.toNat).map
        (Stored.inRegion kind)) := by
    rw [← Vm.elements?_eq htarget] at hfits ⊢
    rw [Vm.arrayRegion, perform_bind, Vm.perform_elementsBehind hc]
    cases hfound : a.vm.elements? h with
    | none =>
        simp only [Option.getD_none, List.drop_nil, List.take_nil, List.map_nil]
        rfl
    | some elements =>
        rw [hfound] at hfits
        dsimp only
        rw [if_pos ⟨hfirst, hlength, hfits⟩]
        rfl
  have hread : (native (Vm.arrayRegion h kind first length)).perform a = (.ok _, _) :=
    Prod.ext hregion rfl
  exact ⟨_, perform_clearing hread⟩

/-- Elements of a primitive type are settled by themselves. -/
theorem settles_primitive_iff {kind : ValueKind} (hkind : kind ≠ .object) :
    a.Settles tag (stored.asElement kind) value ↔
      regionValue tag (stored.inRegion kind) = .ok value := by
  have htold : a.told tag (stored.asElement kind) = regionValue tag (stored.inRegion kind) := by
    cases stored <;> cases kind <;> first | rfl | exact absurd rfl hkind
  have hobjects : (stored.asElement kind).objects = [] := by
    cases stored <;> cases kind <;> first | rfl | exact absurd rfl hkind
  rw [← htold]
  exact ⟨fun h => h.told, fun h => ⟨h, fun object hmem => by rw [hobjects] at hmem; cases hmem⟩⟩

/-- A reference to an array stays valid, and the array keeps its elements. -/
theorem stays_array (h : Handle) (array : HeapId) (elements : List Stored) :
    Agent.Stays fun a => a.vm.target? h = some array ∧ a.vm.elementsAt array = elements := by
  intro _ x a hx hshape hbefore
  obtain ⟨htarget, rfl⟩ := hbefore
  have hrecalls : Recalls a (x.perform a).2 := .looks hshape.toInOrder hx
  exact ⟨hx.target? hshape.toOrderly htarget,
    hrecalls.endures.elementsAt (hshape.closed.target? htarget)⟩

/-- The value of the reference at a place among the elements is settled. -/
def Agent.SettlesAt (a : Agent) (elements : List Stored) (tag : TypeTag) (place : Nat)
    (value : Value) : Prop :=
  ∃ stored, elements[place]? = some stored ∧ a.Settles tag (stored.asElement .object) value

theorem stays_settlesAt (elements : List Stored) (tag : TypeTag) (place : Nat) (value : Value) :
    Agent.Stays fun a => a.SettlesAt elements tag place value := by
  rintro _ x a hx hshape ⟨stored, hstored, hsettled⟩
  exact ⟨stored, hstored, stays_settles _ _ _ hx hshape hsettled⟩

section Run

variable (hshape : a.InShape) (htarget : a.vm.target? h = some array) {kind : ValueKind}
  {first length : Int} (hfirst : 0 ≤ first) (hlength : 0 ≤ length)
  (hfits : first + length ≤ (a.vm.elementsAt array).length) {values : List Value}
include hshape htarget hfirst hlength hfits

/-- Elements of a primitive type are told each by itself. -/
theorem perform_readRun_primitive (hkind : kind ≠ .object) :
    ((readRun h tag kind first length).perform a).1 =
      ((((a.vm.elementsAt array).drop first.toNat).take length.toNat).mapM
        fun stored => regionValue tag (stored.inRegion kind)).mapError .refused := by
  obtain ⟨near, hregion⟩ := perform_region hshape.closed htarget hfirst hlength hfits kind
  have hsize : (((a.vm.elementsAt array).drop first.toNat).take length.toNat).length =
      length.toNat := by
    simp only [List.length_take, List.length_drop]
    omega
  rw [readRun, if_neg hkind, perform_bind_of_ok hregion, List.length_map, hsize, perform_bind]
  simp only [decide_true, perform_guard_true, Action.ofExcept, perform_inspect, List.mapM_map]
  rfl

/-- The elements that have been read are settled. -/
theorem readRun_settles (hperform : (readRun h tag kind first length).perform a = (.ok values, b)) :
    List.Forall₂ (fun stored value => b.Settles tag (stored.asElement kind) value)
      (((a.vm.elementsAt array).drop first.toNat).take length.toNat) values := by
  by_cases hkind : kind = .object
  · obtain ⟨start, rfl⟩ := Int.eq_ofNat_of_zero_le hfirst
    subst hkind
    rw [readRun, if_pos rfl] at hperform
    rw [Int.toNat_natCast]
    refine (forall₂_range_iff (by omega)).mp ?_
    refine mapM_settles
      (S := fun offset b value => b.SettlesAt (a.vm.elementsAt array) tag (start + offset) value)
      (fun _ => looks_readElement h tag _) (stays_array h array (a.vm.elementsAt array))
      (fun offset => stays_settlesAt _ tag (start + offset))
      (fun offset hmem near value c hnear harray hone => ?_)
      hshape ⟨htarget, rfl⟩ hperform
    obtain ⟨hvalid, hsame⟩ := harray
    have hlt : start + offset < (a.vm.elementsAt array).length := by
      have hoffset := List.mem_range.mp hmem
      omega
    obtain ⟨stored, hstored⟩ :
        ∃ stored, (a.vm.elementsAt array)[start + offset]? = some stored :=
      ⟨_, List.getElem?_eq_getElem hlt⟩
    exact ⟨stored, hstored, readElement_settles hnear hvalid (hsame ▸ hstored) hone⟩
  · have hresult := hperform ▸
      perform_readRun_primitive hshape htarget hfirst hlength hfits hkind
    exact (mapM_eq_ok_iff.mp (eq_ok_of_mapError hresult.symm)).imp fun _ _ hone =>
      (settles_primitive_iff hkind).mpr hone

/-- Elements that are settled are read as before. -/
theorem readRun_again (hsettled :
      List.Forall₂ (fun stored value => a.Settles tag (stored.asElement kind) value)
        (((a.vm.elementsAt array).drop first.toNat).take length.toNat) values) :
    ((readRun h tag kind first length).perform a).1 = .ok values := by
  by_cases hkind : kind = .object
  · obtain ⟨start, rfl⟩ := Int.eq_ofNat_of_zero_le hfirst
    subst hkind
    rw [Int.toNat_natCast] at hsettled
    rw [readRun, if_pos rfl]
    refine mapM_again
      (S := fun offset b value => b.SettlesAt (a.vm.elementsAt array) tag (start + offset) value)
      (fun _ => looks_readElement h tag _) (stays_array h array (a.vm.elementsAt array))
      (fun offset => stays_settlesAt _ tag (start + offset))
      (fun offset hmem near value hnear harray hone => ?_)
      hshape ⟨htarget, rfl⟩ ((forall₂_range_iff (by omega)).mpr hsettled)
    obtain ⟨hvalid, hsame⟩ := harray
    obtain ⟨stored, hstored, hsettled⟩ := hone
    exact readElement_again hnear hvalid (hsame ▸ hstored) hsettled
  · rw [perform_readRun_primitive hshape htarget hfirst hlength hfits hkind,
      mapM_eq_ok_iff.mpr (hsettled.imp fun _ _ h => (settles_primitive_iff hkind).mp h)]
    rfl

end Run

/-! ### Refusals -/

theorem mapM_error {ε ι α : Type} {f : ι → Except ε α} {is : List ι} {cause : ε}
    (h : is.mapM f = .error cause) : ∃ i ∈ is, f i = .error cause := by
  induction is with
  | nil => cases h
  | cons i is ih =>
      rw [List.mapM_cons] at h
      cases hone : f i with
      | error first =>
          rw [hone] at h
          cases h
          exact ⟨i, List.mem_cons_self, hone⟩
      | ok r =>
          rw [hone] at h
          cases hothers : is.mapM f with
          | error later =>
              rw [hothers] at h
              cases h
              obtain ⟨j, hmem, hj⟩ := ih hothers
              exact ⟨j, List.mem_cons_of_mem i hmem, hj⟩
          | ok rs =>
              rw [hothers] at h
              cases h

theorem elementType_error {signature : String} {cause : ProtocolError}
    (h : elementType signature = .error cause) : cause.isBound = false := by
  rw [elementType] at h
  split at h
  · cases h
    rfl
  · rename_i component _
    cases hfound : TypeTag.ofSignature component with
    | error cause =>
        rw [declaredTag, hfound] at h
        cases h
        rfl
    | ok tag =>
        rw [declaredTag, hfound] at h
        cases tag <;> cases h
        rfl

theorem readElement_refused (hshape : a.InShape) (htarget : a.vm.target? h = some array)
    (hstored : (a.vm.elementsAt array)[index]? = some stored) {cause : ProtocolError}
    (hperform : ((readElement h tag index).perform a).1 = .error (.refused cause)) :
    cause.isBound = false := by
  obtain ⟨raw, near, hread, hnear, hbehind, -⟩ := element_given hshape htarget hstored
  rw [bind_readElement, perform_bind_of_ok hread, perform_wrap_behind hnear hbehind] at hperform
  exact told_error (eq_error_of_mapError hperform)

section Run

variable (hshape : a.InShape) (htarget : a.vm.target? h = some array) {kind : ValueKind}
  {first length : Int} (hfirst : 0 ≤ first) (hlength : 0 ≤ length)
  (hfits : first + length ≤ (a.vm.elementsAt array).length) {cause : ProtocolError}
include hshape htarget hfirst hlength hfits

/-- A run of elements that lies in the array is not refused for its place. -/
theorem readRun_refused
    (hperform : ((readRun h tag kind first length).perform a).1 = .error (.refused cause)) :
    cause.isBound = false := by
  by_cases hkind : kind = .object
  · obtain ⟨start, rfl⟩ := Int.eq_ofNat_of_zero_le hfirst
    rw [readRun, if_pos hkind] at hperform
    refine mapM_refused (Q := fun cause => cause.isBound = false)
      (fun _ => looks_readElement h tag _) (stays_array h array (a.vm.elementsAt array))
      (fun offset hmem near cause hnear harray hone => ?_) hshape ⟨htarget, rfl⟩ hperform
    obtain ⟨hvalid, hsame⟩ := harray
    have hlt : start + offset < (near.vm.elementsAt array).length := by
      have hoffset := List.mem_range.mp hmem
      rw [hsame]
      omega
    exact readElement_refused hnear hvalid (List.getElem?_eq_getElem hlt) hone
  · rw [perform_readRun_primitive hshape htarget hfirst hlength hfits hkind] at hperform
    obtain ⟨stored, -, hrefused⟩ := mapM_error (eq_error_of_mapError hperform)
    cases hraw : stored.inRegion kind with
    | primitive v =>
        rw [hraw] at hrefused
        have htold : a.told tag (.primitive v) = .error cause := hrefused
        exact told_error htold
    | object =>
        rw [hraw] at hrefused
        cases hrefused
        rfl

end Run

theorem readArray_refused (hshape : a.InShape) (htarget : a.vm.target? h = some array)
    {first length : Int} (hfirst : 0 ≤ first) (hlength : 0 ≤ length)
    (hfits : first + length ≤ (a.vm.elementsAt array).length) {signature : String}
    {cause : ProtocolError}
    (hperform : ((readArray h signature first length).perform a).1 = .error (.refused cause)) :
    cause.isBound = false := by
  rw [readArray_eq] at hperform
  cases htype : elementType signature with
  | error found =>
      rw [htype] at hperform
      cases hperform
      exact elementType_error htype
  | ok type =>
      rw [htype] at hperform
      exact readRun_refused hshape htarget hfirst hlength hfits hperform

/-! ### Arrays that the client knows -/

namespace Command.Object

variable {id : ObjectId} {body : ClassBody} {first length : Int} {α : Type}

/-- Does something to a run of elements if it lies in the array. -/
def inArray (size first length : Int) (x : Command α) : Command α := do
  Action.guard (0 ≤ first ∧ first ≤ size) .invalidIndex
  Action.guard (0 ≤ length ∧ first + length ≤ size) .invalidLength
  x

theorem perform_inArray (size first length : Int) (x : Command α) (a : Agent) :
    (inArray size first length x).perform a =
      if first < 0 ∨ size < first then (.error (.refused .invalidIndex), a)
      else if length < 0 ∨ size < first + length then (.error (.refused .invalidLength), a)
      else x.perform a := by
  rw [inArray, perform_bind]
  by_cases hfirst : 0 ≤ first ∧ first ≤ size
  · rw [decide_eq_true hfirst, if_neg (by omega), perform_guard_true]
    dsimp only
    rw [perform_bind]
    by_cases hlength : 0 ≤ length ∧ first + length ≤ size
    · rw [decide_eq_true hlength, if_neg (by omega), perform_guard_true]
    · rw [decide_eq_false hlength, if_pos (by omega), perform_guard_false]
  · rw [decide_eq_false hfirst, if_pos (by omega), perform_guard_false]

/-- The values of a run of elements, read in some way. -/
def arrayValuesBy (read : Handle → String → Int → Int → Command (List Value)) (id : ObjectId)
    (first length : Int) : Command (List Value) :=
  withObject id fun array => do
    let signature ← arraySignature array
    let size ← native (Vm.arrayLength array)
    inArray size first length (read array signature first length)

theorem arrayValuesBy_readArray : arrayValuesBy readArray = arrayValues := rfl

/-- An array tells the signature of its class. -/
theorem perform_arraySignature (hshape : a.InShape) (htarget : a.vm.target? h = some array)
    (hclass : a.vm.runtimeClass? array = some body)
    (harray : body.signature.toList.head? = some '[') :
    ((arraySignature h).perform a).1 = .ok body.signature := by
  obtain ⟨held, hheld, -⟩ := Option.bind_eq_some_iff.mp hclass
  have hnew : (a.vm.newLocal held.cls).1.isNull = false :=
    Vm.isNull_newRef a.vm .localRef held.cls
  have hclassOf := classOf_runtimeClass hheld
  rw [hclass, Option.elim_some] at hclassOf
  rw [arraySignature, withClassOf, perform_bind,
    perform_objectClassRef_live hshape.closed htarget hheld]
  simp [requireRef, hnew, perform_bind, ask, Vm.classSignature, hclassOf, harray, Except.map]

/-- Elements are read where there are some, with the array at hand. -/
theorem perform_arrayValuesBy (hshape : a.InShape)
    (hlive : a.tracker.target? a.vm id = some array) (hclass : a.vm.runtimeClass? array = some body)
    (harray : body.signature.toList.head? = some '[') : ∃ h near,
    near.InShape ∧ near.vm.target? h = some array ∧ Recalls a near ∧
      ∀ read first length, (arrayValuesBy read id first length).perform a =
        (withLocal h (inArray (a.vm.elementsAt array).length first length
          (read h body.signature first length))).perform near := by
  have hsize : array < a.vm.heap.size := hshape.live_of_target? hlive
  let h := (a.vm.newLocal array).1
  have hopened : (a.opened array).InShape := hshape.opened hsize
  have htarget : (a.opened array).vm.target? h = some array :=
    Vm.target?_newRef a.vm .localRef array
  let near := ((arraySignature h).perform (a.opened array)).2
  have hlooks : Looks Control.Any (arraySignature h) := looks_arraySignature h
  have hsignature : (arraySignature h).perform (a.opened array) = (.ok body.signature, near) :=
    Prod.ext (perform_arraySignature hopened htarget hclass harray) rfl
  have hnear : near.InShape := hopened.looks hlooks
  have hvalid : near.vm.target? h = some array := hlooks.target? hopened.toOrderly htarget
  have hrecalls : Recalls a near :=
    (recalls_opened hshape.toInOrder array).trans (.looks hopened.toInOrder hlooks)
  have hlength : (native (Vm.arrayLength h)).perform near =
      (.ok ↑(a.vm.elementsAt array).length, near) := by
    rw [native, perform_within, Vm.perform_arrayLength hnear.closed hvalid,
      hrecalls.endures.elementsAt hsize]
    rfl
  refine ⟨h, near, hnear, hvalid, hrecalls, fun read first length => ?_⟩
  rw [arrayValuesBy, withObject, perform_withRef_live hlive, perform_withLocal,
    perform_bind_of_ok hsignature, perform_bind_of_ok hlength]
  rfl

section Known

variable (hshape : a.InShape) (hlive : a.tracker.target? a.vm id = some array)
  (hclass : a.vm.runtimeClass? array = some body)
  (harray : body.signature.toList.head? = some '[')
include hshape hlive hclass harray

/-- A run that does not lie in the array is refused for its start or else for its length, and other
runs are not. -/
theorem arrayValues_bounds (first length : Int) :
    let size : Int := (a.vm.elementsAt array).length
    let outcome := ((arrayValues id first length).perform a).1
    (outcome = .error (.refused .invalidIndex) ↔ first < 0 ∨ size < first) ∧
      (¬ (first < 0 ∨ size < first) →
        (outcome = .error (.refused .invalidLength) ↔ length < 0 ∨ size < first + length)) := by
  obtain ⟨h, near, hnear, hvalid, hrecalls, hread⟩ :=
    perform_arrayValuesBy hshape hlive hclass harray
  have hsame := hrecalls.endures.elementsAt (hshape.live_of_target? hlive)
  rw [← arrayValuesBy_readArray, hread, perform_withLocal, perform_inArray]
  dsimp only
  by_cases hfirst : first < 0 ∨ (a.vm.elementsAt array).length < first
  · simp [hfirst]
  · by_cases hlength : length < 0 ∨ (a.vm.elementsAt array).length < first + length
    · simp [hfirst, hlength]
    · have hrefused : ∀ cause, ((readArray h body.signature first length).perform near).1 =
          .error (.refused cause) → cause.isBound = false := fun cause =>
        readArray_refused hnear hvalid (by omega) (by omega) (by rw [hsame]; omega)
      simp only [hfirst, hlength, if_false, iff_false, not_false_eq_true, true_implies]
      constructor
      · intro hindex
        cases hrefused _ hindex
      · intro hlength
        cases hrefused _ hlength

/-- What is done about a run that does not lie in the array does not depend on how elements are
read. -/
theorem perform_arrayValuesBy_outside {first length : Int}
    (hout : ¬ (0 ≤ first ∧ 0 ≤ length ∧ first + length ≤ (a.vm.elementsAt array).length))
    (read read' : Handle → String → Int → Int → Command (List Value)) :
    (arrayValuesBy read id first length).perform a =
      (arrayValuesBy read' id first length).perform a := by
  obtain ⟨h, near, -, -, -, hread⟩ := perform_arrayValuesBy hshape hlive hclass harray
  rw [hread, hread, perform_withLocal, perform_withLocal, perform_inArray, perform_inArray]
  by_cases hfirst : first < 0 ∨ (a.vm.elementsAt array).length < first
  · rw [if_pos hfirst, if_pos hfirst]
  · rw [if_neg hfirst, if_neg hfirst, if_pos (by omega), if_pos (by omega)]

/-- After an array has been read as a whole, its elements are settled. -/
theorem arrayValues_settles {values : List Value}
    (hperform : (arrayValues id 0 (a.vm.elementsAt array).length).perform a = (.ok values, b)) :
    ∃ tag kind, elementType body.signature = .ok (tag, kind) ∧
      List.Forall₂ (fun stored value => b.Settles tag (stored.asElement kind) value)
        (a.vm.elementsAt array) values := by
  obtain ⟨h, near, hnear, hvalid, hrecalls, hread⟩ :=
    perform_arrayValuesBy hshape hlive hclass harray
  have hsame := hrecalls.endures.elementsAt (hshape.live_of_target? hlive)
  rw [← arrayValuesBy_readArray, hread, perform_withLocal, perform_inArray, if_neg (by omega),
    if_neg (by omega), readArray_eq] at hperform
  cases htype : elementType body.signature with
  | error cause =>
      rw [htype] at hperform
      cases hperform
  | ok type =>
      obtain ⟨tag, kind⟩ := type
      rw [htype] at hperform
      dsimp only at hperform
      let last := ((readRun h tag kind 0 (a.vm.elementsAt array).length).perform near).2
      have hrun : (readRun h tag kind 0 (a.vm.elementsAt array).length).perform near =
          (.ok values, last) := Prod.ext (Prod.mk.inj hperform).1 rfl
      have hsettled := readRun_settles hnear hvalid (Int.le_refl 0) (Int.natCast_nonneg _)
        (by rw [hsame]; omega) hrun
      have hb : b = last.setVm ([h].foldl dropLocal last.vm) :=
        (Prod.mk.inj hperform).2.symm
      have hlast : last.InShape := hnear.looks (looks_readRun h tag kind 0 _)
      have hdropped := recalls_dropLocals hlast.toInOrder [h]
      refine ⟨tag, kind, rfl, ?_⟩
      rw [hsame, Int.toNat_zero, List.drop_zero, Int.toNat_natCast, List.take_length] at hsettled
      exact hsettled.imp fun _ _ hone => hb ▸ hone.recalls hdropped

/-- A run of elements that are settled is read as before. -/
theorem arrayValues_again {tag : TypeTag} {kind : ValueKind} {values : List Value}
    (htype : elementType body.signature = .ok (tag, kind))
    (hsettled : List.Forall₂ (fun stored value => a.Settles tag (stored.asElement kind) value)
      (a.vm.elementsAt array) values) {first length : Int} (hfirst : 0 ≤ first)
    (hlength : 0 ≤ length) (hfits : first + length ≤ (a.vm.elementsAt array).length) :
    ((arrayValues id first length).perform a).1 =
      .ok ((values.drop first.toNat).take length.toNat) := by
  obtain ⟨h, near, hnear, hvalid, hrecalls, hread⟩ :=
    perform_arrayValuesBy hshape hlive hclass harray
  have hsame := hrecalls.endures.elementsAt (hshape.live_of_target? hlive)
  rw [← arrayValuesBy_readArray, hread, perform_withLocal, perform_inArray, if_neg (by omega),
    if_neg (by omega), readArray_eq, htype]
  refine readRun_again hnear hvalid hfirst hlength (by rw [hsame]; exact hfits) ?_
  rw [hsame]
  exact List.forall₂_take _ (List.forall₂_drop _ (hsettled.imp fun _ _ hone => hone.recalls hrecalls))

end Known

end Command.Object

end Elements

/-! ### What the client gets -/

/-- The client knows an array by an identifier, and has been told its elements as these values. -/
structure Agent.HasRead (a : Agent) (id : ObjectId) (array : HeapId) (values : List Value) :
    Prop where
  reachable : a.Reachable
  live : a.tracker.target? a.vm id = some array
  settled : ∃ body tag kind, a.vm.runtimeClass? array = some body ∧
    body.signature.toList.head? = some '[' ∧ elementType body.signature = .ok (tag, kind) ∧
      List.Forall₂ (fun stored value => a.Settles tag (stored.asElement kind) value)
        (a.vm.elementsAt array) values

namespace Agent.HasRead

variable {a b : Agent} {id : ObjectId} {array : HeapId} {values : List Value}

theorem length_eq (h : a.HasRead id array values) :
    values.length = (a.vm.elementsAt array).length := by
  obtain ⟨_, _, _, -, -, -, hsettled⟩ := h.settled
  exact hsettled.length_eq.symm

/-- What has been read is still there as long as no identifiers are given back. -/
theorem recalls (h : a.HasRead id array values) (hb : b.Reachable) (hrecalls : Recalls a b) :
    b.HasRead id array values := by
  obtain ⟨body, tag, kind, hclass, harray, htype, hsettled⟩ := h.settled
  obtain ⟨later, hlater, hsignature⟩ := hrecalls.endures.runtimeClass? hclass
  have hsame := hrecalls.endures.elementsAt (h.reachable.inShape.live_of_target? h.live)
  refine ⟨hb, hrecalls.target? h.reachable.consistent.holds hb.consistent.holds h.live,
    later, tag, kind, hlater, hsignature ▸ harray, hsignature ▸ htype, ?_⟩
  rw [hsame]
  exact hsettled.imp fun _ _ hone => hone.recalls hrecalls

/-- A run of the elements is told as the part of them that it is. -/
theorem part (h : a.HasRead id array values) (hlater : a.Later (fun op => !op.givesBack) b)
    (hattach : b.vm.attachFails = false) (caller : NativeThread) {first length : Int}
    (hfirst : 0 ≤ first) (hlength : 0 ≤ length)
    (hfits : first + length ≤ (a.vm.elementsAt array).length) :
    (Agent.serve caller (.arrayValues id first length) b).1 =
      .ok (.values ((values.drop first.toNat).take length.toNat)) := by
  have hnear : Agent.Reachable _ := (hlater.reachable h.reachable).attached hattach caller
  have hrecalls := (hlater.recalls h.reachable (by simp)).trans (.attach b caller)
  have hread := h.recalls hnear hrecalls
  obtain ⟨body, tag, kind, hclass, harray, htype, hsettled⟩ := hread.settled
  rw [Agent.serve_eq_map hattach (by simp) rfl, told_eq_ok_iff fun _ _ => Reply.values.inj]
  refine Object.arrayValues_again hnear.inShape hread.live hclass harray htype hsettled hfirst
    hlength ?_
  rwa [← hread.length_eq, h.length_eq]

/-- Two runs that make up the array, read one after the other, make up the whole. -/
theorem parts (h : a.HasRead id array values) {c : Agent}
    (hlater : a.Later (fun op => !op.givesBack) b) (hattach : b.vm.attachFails = false)
    (hlater' : b.Later (fun op => !op.givesBack) c) (hattach' : c.vm.attachFails = false)
    (caller caller' : NativeThread) {middle : Int} (hmiddle : 0 ≤ middle)
    (hle : middle ≤ (a.vm.elementsAt array).length) : ∃ front back,
    (Agent.serve caller (.arrayValues id 0 middle) b).1 = .ok (.values front) ∧
      (Agent.serve caller' (.arrayValues id middle ((a.vm.elementsAt array).length - middle)) c).1 =
        .ok (.values back) ∧ front ++ back = values := by
  refine ⟨_, _, h.part hlater hattach caller (Int.le_refl 0) hmiddle (by omega),
    h.part (hlater.trans hlater') hattach' caller' hmiddle (by omega) (by omega), ?_⟩
  have hrest : (values.drop middle.toNat).length ≤
      ((a.vm.elementsAt array).length - middle).toNat := by
    rw [List.length_drop, h.length_eq]
    omega
  rw [Int.toNat_zero, List.drop_zero, List.take_of_length_le hrest, List.take_append_drop]

end Agent.HasRead

/-- An array that has been read as a whole has been read. -/
theorem hasRead_of_whole {a : Agent} (h : a.Reachable) (hattach : a.vm.attachFails = false)
    {id : ObjectId} {array : HeapId} {body : ClassBody}
    (hlive : a.tracker.target? a.vm id = some array) (hclass : a.vm.runtimeClass? array = some body)
    (harray : body.signature.toList.head? = some '[') {caller : NativeThread} {values : List Value}
    (hvalues : (Agent.serve caller (.arrayValues id 0 (a.vm.elementsAt array).length) a).1 =
      .ok (.values values)) :
    let after := (Agent.serve caller (.arrayValues id 0 (a.vm.elementsAt array).length) a).2
    after.HasRead id array values ∧ after.vm.elementsAt array = a.vm.elementsAt array := by
  let near := a.setVm (a.vm.attach caller).2
  have hnear : near.Reachable := h.attached hattach caller
  have hlive' : near.tracker.target? near.vm id = some array :=
    (tracker_target?_attach a caller id).trans hlive
  have hclass' : near.vm.runtimeClass? array = some body := Vm.runtimeClass?_attach hclass caller
  have hsame : near.vm.elementsAt array = a.vm.elementsAt array :=
    (Vm.Endures.attach a.vm caller).elementsAt (h.inShape.live_of_target? hlive)
  have hreachable := h.apply (.command caller (.arrayValues id 0 (a.vm.elementsAt array).length))
    Vm.has_nil
  rw [Agent.apply] at hreachable
  rw [Agent.serve_eq_map hattach (by simp) rfl] at hvalues hreachable ⊢
  rw [told_eq_ok_iff fun _ _ => Reply.values.inj, ← hsame] at hvalues
  rw [← hsame] at hreachable ⊢
  dsimp only at hreachable ⊢
  let after := ((Object.arrayValues id 0 (near.vm.elementsAt array).length).perform near).2
  obtain ⟨tag, kind, htype, hsettled⟩ := Object.arrayValues_settles (b := after) hnear.inShape hlive'
    hclass' harray (Prod.ext hvalues rfl)
  have hrecalls : Recalls near after := .looks hnear.inOrder (Object.looks_arrayValues id 0 _)
  obtain ⟨later, hlater, hsignature⟩ := hrecalls.endures.runtimeClass? hclass'
  have helements := hrecalls.endures.elementsAt (hnear.inShape.live_of_target? hlive')
  refine ⟨⟨hreachable, ?_, later, tag, kind, hlater, hsignature ▸ harray, hsignature ▸ htype, ?_⟩,
    helements⟩
  · exact hrecalls.target? hnear.consistent.holds hreachable.consistent.holds hlive'
  · rwa [helements]

/-- Reading an array in parts.  A run is refused for its start if it starts outside the array, else
for its length if that is negative or goes beyond the end, and never for its place otherwise; what
is refused is refused before any element is read, so it makes no difference how elements are read.
Once the array has been read as a whole, every run that lies in it is that part of the whole, for as
long as no identifiers are given back; so two runs that make up the array make up the whole. -/
theorem array_read_in_parts {a : Agent} (h : a.Reachable) (hattach : a.vm.attachFails = false)
    {id : ObjectId} {array : HeapId} {body : ClassBody}
    (hlive : a.tracker.target? a.vm id = some array) (hclass : a.vm.runtimeClass? array = some body)
    (harray : body.signature.toList.head? = some '[') (caller : NativeThread) :
    let size : Int := (a.vm.elementsAt array).length
    let read (first length : Int) := Agent.serve caller (.arrayValues id first length) a
    (∀ first length,
      ((read first length).1 = .error .invalidIndex ↔ first < 0 ∨ size < first) ∧
      (¬ (first < 0 ∨ size < first) →
        ((read first length).1 = .error .invalidLength ↔ length < 0 ∨ size < first + length)) ∧
      (¬ (0 ≤ first ∧ 0 ≤ length ∧ first + length ≤ size) → ∀ reader,
        answer caller (.values <$> Object.arrayValuesBy reader id first length) a =
          read first length)) ∧
    ∀ values, (read 0 size).1 = .ok (.values values) → values.length = size ∧
      ∀ b, (read 0 size).2.Later (fun op => !op.givesBack) b → b.vm.attachFails = false →
        (∀ caller' first length, 0 ≤ first → 0 ≤ length → first + length ≤ size →
          (Agent.serve caller' (.arrayValues id first length) b).1 =
            .ok (.values ((values.drop first.toNat).take length.toNat))) ∧
        ∀ middle, 0 ≤ middle → middle ≤ size → ∀ c, b.Later (fun op => !op.givesBack) c →
          c.vm.attachFails = false → ∀ caller' caller'', ∃ front back,
            (Agent.serve caller' (.arrayValues id 0 middle) b).1 = .ok (.values front) ∧
            (Agent.serve caller'' (.arrayValues id middle (size - middle)) c).1 =
              .ok (.values back) ∧
            front ++ back = values := by
  refine ⟨fun first length => ?_, fun values hvalues => ?_⟩
  · let near := a.setVm (a.vm.attach caller).2
    have hnear : near.InShape := (h.attached hattach caller).inShape
    have hlive' : near.tracker.target? near.vm id = some array :=
      (tracker_target?_attach a caller id).trans hlive
    have hclass' : near.vm.runtimeClass? array = some body := Vm.runtimeClass?_attach hclass caller
    have hsame : near.vm.elementsAt array = a.vm.elementsAt array :=
      (Vm.Endures.attach a.vm caller).elementsAt (h.inShape.live_of_target? hlive)
    have hserve : Agent.serve caller (.arrayValues id first length) a =
        let told := (Object.arrayValues id first length).perform near
        ((told.1.map .values).mapError Stop.told, told.2) := Agent.serve_eq_map hattach (by simp) rfl
    have hbounds := Object.arrayValues_bounds hnear hlive' hclass' harray first length
    rw [hsame] at hbounds
    dsimp only
    rw [hserve, told_eq_error_iff (by decide), told_eq_error_iff (by decide)]
    refine ⟨hbounds.1, hbounds.2, fun hout reader => ?_⟩
    rw [← hsame] at hout
    rw [answer_of_attaching hattach, perform_map,
      Object.perform_arrayValuesBy_outside hnear hlive' hclass' harray hout reader readArray]
    rfl
  · obtain ⟨hread, hsame⟩ := hasRead_of_whole h hattach hlive hclass harray hvalues
    refine ⟨by rw [hread.length_eq, hsame], fun b hlater hattach' => ⟨?_, ?_⟩⟩
    · intro caller' first length hfirst hlength hfits
      exact hread.part hlater hattach' caller' hfirst hlength (by rw [hsame]; exact hfits)
    · intro middle hmiddle hle c hlater' hattach'' caller' caller''
      rw [← hsame] at hle ⊢
      exact hread.parts hlater hattach' hlater' hattach'' caller' caller'' hmiddle hle

/-- An array of two thread groups and null, known as object 1. -/
def groupsKnown : Agent :=
  (Agent.start Vm.fresh {}).run
    [.setup (.newArray "[Ljava/lang/ThreadGroup;"
      [.reference (some Vm.mainGroup), .reference none, .reference (some Vm.systemGroup)]),
      .setup (.takeRef 10), .trackNew (.client 0) ⟨0x1000⟩]

/-- The last two elements are told as before by another native thread; beyond them there is nothing
to be read. -/
theorem groups_read_in_parts : groupsKnown.Reachable ∧ groupsKnown.vm.attachFails = false ∧
    groupsKnown.tracker.target? groupsKnown.vm 1 = some 10 ∧
    let whole := Agent.serve (.client 0) (.arrayValues 1 0 3) groupsKnown
    whole.1 = .ok (.values [⟨.threadGroup, .object 2⟩, ⟨.object, .object 0⟩,
      ⟨.threadGroup, .object 3⟩]) ∧
    (Agent.serve (.client 1) (.arrayValues 1 1 2) whole.2).1 =
      .ok (.values [⟨.object, .object 0⟩, ⟨.threadGroup, .object 3⟩]) ∧
    (Agent.serve (.client 0) (.arrayValues 1 3 1) groupsKnown).1 = .error .invalidLength := by
  have hreachable : groupsKnown.Reachable := by
    apply Agent.Reachable.run (.start {})
    decide +kernel
  have hattach : groupsKnown.vm.attachFails = false := by decide +kernel
  have hlive : groupsKnown.tracker.target? groupsKnown.vm 1 = some 10 := by decide +kernel
  have hsignature : (groupsKnown.vm.runtimeClass? 10).map ClassBody.signature =
      some "[Ljava/lang/ThreadGroup;" := by decide +kernel
  obtain ⟨body, hclass, hbody⟩ := Option.map_eq_some_iff.mp hsignature
  have hsize : (groupsKnown.vm.elementsAt 10).length = 3 := by decide +kernel
  have hwhole : (Agent.serve (.client 0) (.arrayValues 1 0 3) groupsKnown).1 =
      .ok (.values [⟨.threadGroup, .object 2⟩, ⟨.object, .object 0⟩,
        ⟨.threadGroup, .object 3⟩]) := by decide +kernel
  have hafter : (Agent.serve (.client 0) (.arrayValues 1 0 3) groupsKnown).2.vm.attachFails =
      false := by decide +kernel
  obtain ⟨hbounds, hparts⟩ :=
    array_read_in_parts hreachable hattach hlive hclass (by rw [hbody]; decide) (.client 0)
  rw [hsize] at hbounds hparts
  obtain ⟨-, hlater⟩ := hparts _ hwhole
  exact ⟨hreachable, hattach, hlive, hwhole,
    (hlater _ .now hafter).1 (.client 1) 1 2 (by decide) (by decide) (by decide),
    ((hbounds 3 1).2.1 (by decide)).mpr (by decide)⟩

end DebugAgent
