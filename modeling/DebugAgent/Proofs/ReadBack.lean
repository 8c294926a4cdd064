import DebugAgent.Config
import DebugAgent.Event.Codec
import Mathlib.Data.List.Basic
import Mathlib.Tactic.Common

/-!
# Reading back what is written

A record is written member by member and read by the names of its members.  A reader restores what
was written: the same record is read if its integers have the width that the protocol gives them,
and otherwise nothing is.  The laws are stated for the parts first, so that the law of a record is
put together from those of its members, whatever the order in which it reads them.

The details of an event are held back until their type is known.  What is held back has to fit,
which details that were written always do.
-/

namespace DebugAgent

variable {α : Type}

namespace Json

/-- What was written is read as itself if it has the property, and otherwise not at all. -/
@[reducible] def Restores (write : α → Json) (read : Json → Option α) (P : α → Prop) : Prop :=
  ∀ a b, read (write a) = some b ↔ P a ∧ a = b

/-! ### Integers -/

/-- An integer of 32 bits, signed. -/
def IsInt32 (n : Int) : Prop := -0x80000000 ≤ n ∧ n ≤ 0x7fffffff

/-- An integer of 32 bits, unsigned. -/
def IsWord32 (n : Nat) : Prop := n ≤ 0xffffffff

/-- An integer of 64 bits, unsigned. -/
def IsWord64 (n : Nat) : Prop := n ≤ 0xffffffffffffffff

theorem integer?_ofInt (n : Int) : (Numeral.ofInt n).integer? =
    if -0x8000000000000000 ≤ n ∧ n ≤ 0xffffffffffffffff then some n else none := by
  simp only [Numeral.ofInt, Numeral.integer?, ne_eq, not_true_eq_false, or_self, if_false,
    decide_eq_true_eq]
  grind

/-- Bounds are tested within the integers that can be written as such. -/
theorem intBetween_ofInt {least greatest : Int} (hleast : -0x8000000000000000 ≤ least)
    (hgreatest : greatest ≤ 0xffffffffffffffff) (n m : Int) :
    (ofInt n).intBetween least greatest = some m ↔ (least ≤ n ∧ n ≤ greatest) ∧ n = m := by
  simp only [ofInt, intBetween, integer?_ofInt]
  grind

@[simp] theorem restores_int32 : Restores ofInt int32? IsInt32 :=
  intBetween_ofInt (by decide) (by decide)

theorem restores_word {greatest : Nat} (hgreatest : greatest ≤ 0xffffffffffffffff) :
    Restores ofNat (fun j => (j.intBetween 0 greatest).map Int.toNat) (· ≤ greatest) := by
  intro n m
  simp only [ofNat, Option.map_eq_some_iff, intBetween_ofInt (show _ ≤ (0 : Int) by decide)
    (Int.ofNat_le.mpr hgreatest)]
  grind

@[simp] theorem restores_word32 : Restores ofNat word32? IsWord32 := restores_word (by decide)

@[simp] theorem restores_word64 : Restores ofNat word64? IsWord64 := restores_word (by decide)

/-! ### Other values -/

/-- What is always read as itself is never read as anything else. -/
theorem restores_of_eq {write : α → Json} {read : Json → Option α}
    (h : ∀ a, read (write a) = some a) : Restores write read fun _ => True :=
  fun a b => by simp [h]

@[simp] theorem restores_bool : Restores Json.bool bool? fun _ => True :=
  restores_of_eq fun _ => rfl

@[simp] theorem restores_string : Restores ofString string? fun _ => True :=
  restores_of_eq fun _ => rfl

section Containers

variable {write : α → Json} {read : Json → Option α} {P : α → Prop}

theorem restores_option (h : Restores write read P) (hnull : ∀ a, write a ≠ .null) :
    Restores (ofOption write) (option? read) fun o => ∀ a ∈ o, P a := by
  intro o b
  cases o with
  | none => simp [ofOption, option?]
  | some a =>
      have hread : option? read (write a) = (read (write a)).map some := by
        rw [option?]
        exact hnull a
      simp [ofOption, hread, h]

theorem restores_array (h : Restores write read P) :
    Restores (fun as : List α => .array (as.map write)) (array? read) fun as => ∀ a ∈ as, P a := by
  intro as bs
  rw [array?, List.mapM_map]
  induction as generalizing bs with
  | nil => simp
  | cons a as ih => simp [Option.bind_eq_some_iff, h, ih, and_assoc]

@[simp] theorem restores_optionString :
    Restores (ofOption ofString) (option? string?) fun _ => True :=
  fun o b => by simp [restores_option restores_string (by simp [ofString]) o b]

end Containers

/-! ### Members -/

section Members

variable {members : List (String × Json)} {name other : String} {read : Json → Option α}

/-- The names of members are told apart from their absence. -/
theorem mapM_name_eq_some {members : List (Option String × Json)} {named : List (String × Json)} :
    (members.mapM fun m => m.1.map fun name => (name, m.2)) = some named ↔
      members = named.map fun m => (some m.1, m.2) := by
  induction members generalizing named with
  | nil => cases named <;> simp
  | cons m members ih =>
      obtain ⟨name, value⟩ := m
      cases name with
      | none => cases named <;> simp
      | some name =>
          cases named <;> simp [Option.bind_eq_some_iff, ih, Prod.ext_iff, and_comm]

@[simp] theorem known?_record {names : List String}
    (hapart : ((members.filter fun m => names.contains m.1).map Prod.fst).Nodup) :
    (record members).known? names = some (members.filter fun m => names.contains m.1) := by
  simp only [record, known?, mapM_name_eq_some.mpr rfl, if_pos hapart]

@[simp] theorem field?_cons_self (name : String) (value : Json) (members : List (String × Json))
    (read : Json → Option α) : field? ((name, value) :: members) name read = read value := by
  simp [field?]

@[simp] theorem field?_cons_of_ne (hne : name ≠ other) (value : Json) :
    field? ((other, value) :: members) name read = field? members name read := by
  rw [field?, List.lookup_cons, beq_false_of_ne hne, field?]

@[simp] theorem fieldOr?_cons_self (name : String) (value : Json) (members : List (String × Json))
    (default : α) (read : Json → Option α) :
    fieldOr? ((name, value) :: members) name default read = read value := by
  simp [fieldOr?]

@[simp] theorem fieldOr?_cons_of_ne (hne : name ≠ other) (value : Json) (default : α) :
    fieldOr? ((other, value) :: members) name default read =
      fieldOr? members name default read := by
  rw [fieldOr?, List.lookup_cons, beq_false_of_ne hne, fieldOr?]

end Members

end Json

open Json

/-! ### Parts of records -/

@[simp] theorem TypeTag.restores (source : Source) :
    Restores TypeTag.toJson (TypeTag.ofJson? source) fun _ => True :=
  restores_of_eq fun tag => by cases tag <;> rfl

@[simp] theorem TypeKind.restores (source : Source) :
    Restores TypeKind.toJson (TypeKind.ofJson? source) fun _ => True :=
  restores_of_eq fun kind => by cases kind <;> rfl

theorem ClassStatus.bits_in_range (status : ClassStatus) : IsInt32 status.bits.toInt :=
  ⟨status.bits.le_toInt, Int.le_of_lt_add_one status.bits.toInt_lt⟩

@[simp] theorem ClassStatus.restores :
    Restores ClassStatus.toJson ClassStatus.ofJson? fun _ => True := by
  intro status b
  simp [ofJson?, toJson, status.bits_in_range]

def TaggedTypeId.InRange (t : TaggedTypeId) : Prop := IsWord64 t.typeId

@[simp] theorem TaggedTypeId.restores (source : Source) :
    Restores toJson (ofJson? source) InRange := by
  intro t b
  simp [ofJson?, toJson, InRange, Option.bind_eq_some_iff]

def TaggedObjectId.InRange (t : TaggedObjectId) : Prop := IsWord64 t.objectId

@[simp] theorem TaggedObjectId.restores (source : Source) :
    Restores toJson (ofJson? source) InRange := by
  intro t b
  simp [ofJson?, toJson, InRange, Option.bind_eq_some_iff]

def Location.InRange (l : Location) : Prop :=
  IsWord64 l.classId ∧ IsWord64 l.methodId ∧ IsWord64 l.index

@[simp] theorem Location.restores (source : Source) : Restores toJson (ofJson? source) InRange := by
  intro l b
  simp [ofJson?, toJson, InRange, Option.bind_eq_some_iff, and_assoc]

@[simp] theorem Location.restores_option (source : Source) :
    Restores (ofOption toJson) (option? (ofJson? source)) fun o => ∀ l ∈ o, l.InRange :=
  Json.restores_option (restores source) fun l => by simp [toJson, record]

/-! ### Records -/

def ReferenceType.InRange (t : ReferenceType) : Prop := t.typeId.InRange

theorem ReferenceType.restores : Restores toJson ofJson? InRange := by
  intro t b
  simp [ofJson?, toJson, InRange, Option.bind_eq_some_iff]

def Variable.InRange (v : Variable) : Prop :=
  IsWord64 v.codeIndex ∧ IsWord32 v.length ∧ IsWord32 v.slot

theorem Variable.restores : Restores toJson ofJson? InRange := by
  intro v b
  simp [ofJson?, toJson, InRange, Option.bind_eq_some_iff, and_assoc]

def VariableTable.InRange (t : VariableTable) : Prop :=
  IsInt32 t.argCount ∧ ∀ v ∈ t.entries, v.InRange

theorem VariableTable.restores : Restores toJson ofJson? InRange := by
  intro t b
  have hentries := restores_array Variable.restores
  simp [ofJson?, toJson, InRange, Option.bind_eq_some_iff, hentries _ _, and_assoc]

def LineEntry.InRange (l : LineEntry) : Prop := IsWord64 l.codeIndex ∧ IsInt32 l.line

theorem LineEntry.restores : Restores toJson ofJson? InRange := by
  intro l b
  simp [ofJson?, toJson, InRange, Option.bind_eq_some_iff, and_assoc]

def LineTable.InRange (t : LineTable) : Prop :=
  IsWord64 t.start ∧ IsWord64 t.finish ∧ ∀ l ∈ t.lines, l.InRange

theorem LineTable.restores : Restores toJson ofJson? InRange := by
  intro t b
  have hlines := restores_array LineEntry.restores
  simp [ofJson?, toJson, InRange, Option.bind_eq_some_iff, hlines _ _, and_assoc]

def FrameInfo.InRange (f : FrameInfo) : Prop := IsWord64 f.frameId ∧ f.location.InRange

theorem FrameInfo.restores : Restores toJson ofJson? InRange := by
  intro f b
  simp [ofJson?, toJson, InRange, Option.bind_eq_some_iff, and_assoc]

def VmVersion.InRange (v : VmVersion) : Prop := IsInt32 v.major ∧ IsInt32 v.minor

theorem VmVersion.restores : Restores toJson ofJson? InRange := by
  intro v b
  simp [ofJson?, toJson, InRange, Option.bind_eq_some_iff, and_assoc]

def DisposeRequest.InRange (r : DisposeRequest) : Prop :=
  IsWord64 r.objectId ∧ IsWord32 r.count

theorem DisposeRequest.restores : Restores toJson ofJson? InRange := by
  intro r b
  simp [ofJson?, toJson, InRange, Option.bind_eq_some_iff, and_assoc]

/-! ### Event requests -/

@[simp] theorem EventKind.restores : Restores EventKind.toJson EventKind.ofJson? fun _ => True :=
  restores_of_eq fun kind => by cases kind <;> rfl

@[simp] theorem SuspendPolicy.restores :
    Restores SuspendPolicy.toJson SuspendPolicy.ofJson? fun _ => True :=
  restores_of_eq fun policy => by cases policy <;> rfl

@[simp] theorem StepSize.restores : Restores StepSize.toJson StepSize.ofJson? fun _ => True :=
  restores_of_eq fun size => by cases size <;> rfl

@[simp] theorem StepDepth.restores : Restores StepDepth.toJson StepDepth.ofJson? fun _ => True :=
  restores_of_eq fun depth => by cases depth <;> rfl

namespace EventModifier

def InRange : EventModifier → Prop
  | .count times => IsInt32 times
  | .threadOnly id | .classOnly id | .instanceOnly id => IsWord64 id
  | .classMatch _ | .classExclude _ => True
  | .locationOnly location => location.InRange
  | .exceptionOnly refType _ _ => IsWord64 refType
  | .fieldOnly refType fieldId => IsWord64 refType ∧ IsWord64 fieldId
  | .step thread _ _ => IsWord64 thread

/-- A modifier is read by the name of its only member. -/
theorem ofJson?_record (kind : String) (content : Json) :
    ofJson? (record [(kind, content)]) = ofMember? kind content :=
  rfl

theorem restores : Restores toJson ofJson? InRange := by
  intro modifier b
  cases modifier <;>
    simp [toJson, ofJson?_record, ofMember?, InRange, Option.bind_eq_some_iff, and_assoc]

end EventModifier

/-! ### Values that are held back -/

namespace Json

variable {depth : Nat}

/-- An object that was written takes up one level of nesting. -/
@[simp] theorem fits_record (members : List (String × Json)) :
    (record members).fits (depth + 1) = members.all fun m => m.2.fits depth := by
  have hmembers : membersFit depth (members.map fun m => (some m.1, m.2)) =
      members.all fun m => m.2.fits depth := by
    induction members with
    | nil => rfl
    | cons m members ih => simp [membersFit, ih]
  simp [record, fits, hmembers]

@[simp] theorem fits_ofString (s : String) : (ofString s).fits depth = true := rfl

theorem fits_ofInt {n : Int} (h : -0x8000000000000000 ≤ n ∧ n ≤ 0xffffffffffffffff) :
    (ofInt n).fits depth = true := by
  simp [ofInt, fits, integer?_ofInt, h]

theorem fits_ofNat {n : Nat} (h : IsWord64 n) : (ofNat n).fits depth = true := by
  refine fits_ofInt ⟨by omega, ?_⟩
  rw [IsWord64] at h
  omega

end Json

theorem Location.fits_toJson {l : Location} (h : l.InRange) (depth : Nat) :
    l.toJson.fits (depth + 1) = true := by
  obtain ⟨hclass, hmethod, hindex⟩ := h
  simp [toJson, TypeKind.toJson, fits_ofNat, hclass, hmethod, hindex]

theorem TaggedTypeId.fits_toJson {t : TaggedTypeId} (h : t.InRange) (depth : Nat) :
    t.toJson.fits (depth + 1) = true := by
  simp [toJson, TypeKind.toJson, fits_ofNat h]

theorem TaggedObjectId.fits_toJson {t : TaggedObjectId} (h : t.InRange) (depth : Nat) :
    t.toJson.fits (depth + 1) = true := by
  simp [toJson, TypeTag.toJson, fits_ofNat h]

theorem ClassStatus.fits_toJson (status : ClassStatus) (depth : Nat) :
    status.toJson.fits depth = true := by
  have hrange := status.bits_in_range
  exact fits_ofInt ⟨Int.le_trans (by decide) hrange.1, Int.le_trans hrange.2 (by decide)⟩

/-! ### Events -/

namespace EventDetails

def InRange : EventDetails → Prop
  | .vmDeath => True
  | .threadStart thread | .threadDeath thread => IsWord64 thread
  | .classPrepare thread refType _ _ => IsWord64 thread ∧ refType.InRange
  | .breakpoint thread location | .step thread location | .methodEntry thread location
  | .methodExit thread location => IsWord64 thread ∧ location.InRange
  | .exception thread location thrown catchLocation =>
      IsWord64 thread ∧ location.InRange ∧ thrown.InRange ∧ ∀ l ∈ catchLocation, l.InRange

/-- The type by which details are told apart when they are read. -/
def type : EventDetails → String
  | .vmDeath => "VmDeath"
  | .threadStart _ => "ThreadStart"
  | .threadDeath _ => "ThreadDeath"
  | .classPrepare .. => "ClassPrepare"
  | .breakpoint .. => "Breakpoint"
  | .step .. => "Step"
  | .exception .. => "Exception"
  | .methodEntry .. => "MethodEntry"
  | .methodExit .. => "MethodExit"

/-- Details that were written can be held back. -/
theorem fits_toJson {details : EventDetails} (h : details.InRange) :
    details.toJson.fits depthLeft = true := by
  cases details with
  | vmDeath => rfl
  | threadStart | threadDeath => simp [toJson, depthLeft, fits_ofNat h]
  | classPrepare thread refType signature status =>
      obtain ⟨hthread, hrefType⟩ := h
      simp [toJson, depthLeft, fits_ofNat hthread, TaggedTypeId.fits_toJson hrefType,
        status.fits_toJson]
  | breakpoint | step | methodEntry | methodExit =>
      obtain ⟨hthread, hlocation⟩ := h
      simp [toJson, toJson.located, depthLeft, fits_ofNat hthread,
        Location.fits_toJson hlocation]
  | exception thread location thrown catchLocation =>
      obtain ⟨hthread, hlocation, hthrown, hcatch⟩ := h
      have hhandler : (ofOption Location.toJson catchLocation).fits 123 = true := by
        cases catchLocation with
        | none => rfl
        | some handler => exact Location.fits_toJson (hcatch handler rfl) 122
      simp [toJson, depthLeft, fits_ofNat hthread, Location.fits_toJson hlocation,
        TaggedObjectId.fits_toJson hthrown, hhandler]

/-- What stands beside the type is read as the type says. -/
theorem restores_ofType? (details b : EventDetails) :
    ofType? details.type details.toJson = some b ↔ details.InRange ∧ details = b := by
  cases details <;>
    simp [type, toJson, toJson.located, ofType?, threadOfJson?, locatedOfJson?, InRange,
      Option.bind_eq_some_iff, and_assoc]

theorem known?_type (details : EventDetails) :
    details.toJson.known? ["type"] = some [("type", .ofString details.type)] := by
  cases details <;> simp [toJson, toJson.located, type]

/-- Details that are held back are read as the type says. -/
theorem ofJson?_toJson (details : EventDetails) : ofJson? details.toJson =
    if details.toJson.fits depthLeft then ofType? details.type details.toJson else none := by
  have hobject : ofJson? details.toJson = (details.toJson.known? ["type"]).bind fun typed =>
      (field? typed "type" string?).bind fun type =>
        if details.toJson.fits depthLeft then ofType? type details.toJson else none := by
    cases details <;> rfl
  rw [hobject, known?_type, Option.bind_some, field?_cons_self]
  rfl

theorem restores : Restores toJson ofJson? InRange := by
  intro details b
  rw [ofJson?_toJson, Option.ite_none_right_eq_some, restores_ofType?]
  exact and_iff_right_of_imp fun h => fits_toJson h.1

end EventDetails

def Event.InRange (e : Event) : Prop := IsInt32 e.requestId ∧ e.details.InRange

theorem Event.restores : Restores toJson ofJson? InRange := by
  intro e b
  simp [ofJson?, toJson, InRange, Option.bind_eq_some_iff, EventDetails.restores _ _, and_assoc]

def EventSet.InRange (s : EventSet) : Prop := ∀ e ∈ s.events, e.InRange

theorem EventSet.restores : Restores toJson ofJson? InRange := by
  intro s b
  have hevents := restores_array Event.restores
  simp [ofJson?, toJson, InRange, Option.bind_eq_some_iff, hevents _ _, and_assoc]

end DebugAgent
