import DebugAgent.Proofs.ReadBack
import DebugAgent.Table
import Mathlib.Data.List.Count
import Mathlib.Data.List.Nodup
import Mathlib.Data.Option.Basic

/-!
# Members with defaults

A configuration and the capabilities in it are read from the members that are there; what is absent
has its default.  Every member decides about its own field and no other.  So an object is accepted
exactly if its names leave no doubt and each member that is known can be read, and the fields are
then what the members give.

With this the laws on reading back are complete, and are put together here for all records that
travel as JSON.
-/

namespace DebugAgent

variable {α : Type}

namespace Json

/-- A record with these member names can be read from an object as far as names go: all names in the
object are texts, and none that the record knows occurs twice. -/
structure WellNamed (names : List String) (members : List (Option String × Json)) : Prop where
  text : ∀ m ∈ members, m.1.isSome
  once : ∀ name ∈ names, (members.map Prod.fst).count (some name) ≤ 1

/-- The member of a name decides about a field: the field is what the member gives, and the default
if there is no such member. -/
structure Decides (members : List (Option String × Json)) (name : String) (default : α)
    (Gives : Json → α → Prop) (a : α) : Prop where
  given : ∀ value, (some name, value) ∈ members → Gives value a
  absent : (∀ value, (some name, value) ∉ members) → a = default

/-- The value is a number without fraction and exponent, and an integer of 32 bits. -/
def GivesInt32 (value : Json) (n : Int) : Prop :=
  IsInt32 n ∧ ∃ digits, value = .number digits ∧ digits.integer? = some n

/-! ### What a member gives -/

theorem bind_eq_some {β : Type} {o : Option α} {f : α → Option β} {b : β} :
    (o >>= f) = some b ↔ ∃ a, o = some a ∧ f a = some b :=
  Option.bind_eq_some_iff

theorem bool?_eq_some {value : Json} {b : Bool} : bool? value = some b ↔ value = .bool b := by
  cases value <;> simp [bool?]

theorem string?_eq_some {value : Json} {s : String} :
    string? value = some s ↔ value = .ofString s := by
  cases value <;> simp [string?, ofString]

theorem int32?_eq_some {value : Json} {n : Int} : int32? value = some n ↔ GivesInt32 value n := by
  cases value with
  | number digits =>
      simp only [int32?, intBetween, GivesInt32, IsInt32, number.injEq, exists_eq_left']
      cases digits.integer? <;> grind
  | _ => simp [int32?, intBetween, GivesInt32]

/-! ### Known members -/

section Known

variable {members : List (Option String × Json)} {names : List String} {name : String}
  {named known : List (String × Json)}

/-- Only arrays are read differently when all members have defaults. -/
theorem knownOr?_object (members : List (Option String × Json)) (names : List String) :
    (object members).knownOr? names = (object members).known? names :=
  rfl

@[simp] theorem knownOr?_record (members : List (String × Json)) (names : List String) :
    (record members).knownOr? names = (record members).known? names :=
  rfl

theorem exists_named (htext : ∀ m ∈ members, m.1.isSome) :
    ∃ named : List (String × Json), members = named.map fun m => (some m.1, m.2) := by
  induction members with
  | nil => exact ⟨[], rfl⟩
  | cons m members ih =>
      obtain ⟨hname, hrest⟩ := List.forall_mem_cons.mp htext
      obtain ⟨name, hname⟩ := Option.isSome_iff_exists.mp hname
      obtain ⟨named, rfl⟩ := ih hrest
      exact ⟨(name, m.2) :: named, by rw [List.map_cons, ← hname]⟩

/-- Known members stand apart exactly if no known name occurs twice. -/
theorem nodup_known_iff : ((named.filter fun m => names.contains m.1).map Prod.fst).Nodup ↔
    ∀ name ∈ names, ((named.map fun m => (some m.1, m.2)).map Prod.fst).count (some name) ≤ 1 := by
  have hcount : ∀ name, ((named.map fun m => (some m.1, m.2)).map Prod.fst).count (some name) =
      (named.map Prod.fst).count name := by
    intro name
    rw [← List.count_map_of_injective _ some (Option.some_injective _) name]
    simp [Function.comp_def]
  have hknown : (named.filter fun m => names.contains m.1).map Prod.fst =
      (named.map Prod.fst).filter names.contains := by
    rw [List.filter_map]
    rfl
  simp only [hcount, hknown, List.nodup_iff_count_le_one]
  refine forall_congr' fun name => ?_
  by_cases hname : name ∈ names
  · simp [hname, List.count_filter]
  · simp [hname, List.count_eq_zero.mpr]

theorem knownOr?_object_eq_some : (object members).knownOr? names = some known ↔
    ∃ named : List (String × Json), members = (named.map fun m => (some m.1, m.2)) ∧
      known = (named.filter fun m => names.contains m.1) ∧ (known.map Prod.fst).Nodup := by
  rw [knownOr?_object, known?]
  split
  · rename_i hnone
    refine iff_of_false (by simp) ?_
    rintro ⟨named, hnamed, -⟩
    cases hnone.symm.trans (mapM_name_eq_some.mpr hnamed)
  · rename_i named hnamed
    have hunique : ∀ other : List (String × Json),
        members = (other.map fun m => (some m.1, m.2)) ↔ named = other := by
      intro other
      rw [← mapM_name_eq_some, hnamed, Option.some.injEq]
    simp only [hunique, exists_eq_left']
    grind

/-- The known members of an object can be told exactly if it is well named. -/
theorem wellNamed_iff :
    WellNamed names members ↔ ∃ known, (object members).knownOr? names = some known := by
  constructor
  · rintro ⟨htext, honce⟩
    obtain ⟨named, rfl⟩ := exists_named htext
    exact ⟨_, knownOr?_object_eq_some.mpr ⟨named, rfl, rfl, nodup_known_iff.mpr honce⟩⟩
  · rintro ⟨known, hknown⟩
    obtain ⟨named, rfl, rfl, hdistinct⟩ := knownOr?_object_eq_some.mp hknown
    exact ⟨List.forall_mem_map.mpr fun _ _ => rfl, nodup_known_iff.mp hdistinct⟩

/-- A field with a default is read as its member decides. -/
theorem fieldOr?_eq_some_iff (hknown : (object members).knownOr? names = some known)
    (hname : name ∈ names) {default a : α} {read : Json → Option α} :
    fieldOr? known name default read = some a ↔
      Decides members name default (fun value a => read value = some a) a := by
  obtain ⟨named, rfl, hfilter, hdistinct⟩ := knownOr?_object_eq_some.mp hknown
  let table : Table String Json := ⟨known, hdistinct⟩
  have hlookup : ∀ value, known.lookup name = some value ↔
      (some name, value) ∈ named.map fun m => (some m.1, m.2) := by
    intro value
    refine (Table.mem_entries (t := table)).symm.trans ?_
    simp [table, hfilter, hname]
  rw [fieldOr?]
  cases hvalue : known.lookup name with
  | none =>
      have hnone : ∀ value, (some name, value) ∉ named.map fun m => (some m.1, m.2) := by
        intro value hmem
        cases hvalue.symm.trans ((hlookup value).mpr hmem)
      constructor
      · rintro ⟨⟩
        exact ⟨fun value hmem => absurd hmem (hnone value), fun _ => rfl⟩
      · intro h
        rw [h.absent hnone]
  | some value =>
      have hmem := (hlookup value).mp hvalue
      constructor
      · intro hread
        refine ⟨fun other hother => ?_, fun hnone => absurd hmem (hnone value)⟩
        cases hvalue.symm.trans ((hlookup other).mpr hother)
        exact hread
      · exact fun h => h.given value hmem

/-- A record with defaults is read from an object that is well named, member by member. -/
theorem exists_known_iff {P : List (String × Json) → Prop} {Q : Prop}
    (h : ∀ known, (object members).knownOr? names = some known → (P known ↔ Q)) :
    (∃ known, (object members).knownOr? names = some known ∧ P known) ↔
      WellNamed names members ∧ Q := by
  rw [wellNamed_iff]
  constructor
  · rintro ⟨known, hknown, hread⟩
    exact ⟨⟨known, hknown⟩, (h known hknown).mp hread⟩
  · rintro ⟨⟨known, hknown⟩, hfields⟩
    exact ⟨known, hknown, (h known hknown).mpr hfields⟩

end Known

end Json

open Json

/-! ### Capabilities -/

namespace Capabilities

/-- The capabilities by their names. -/
def flags : List (String × (Capabilities → Bool)) :=
  [("can_tag_objects", canTagObjects),
    ("can_get_synthetic_attribute", canGetSyntheticAttribute),
    ("can_get_source_file_name", canGetSourceFileName),
    ("can_get_line_numbers", canGetLineNumbers),
    ("can_get_source_debug_extension", canGetSourceDebugExtension),
    ("can_access_local_variables", canAccessLocalVariables),
    ("can_generate_single_step_events", canGenerateSingleStepEvents),
    ("can_generate_exception_events", canGenerateExceptionEvents),
    ("can_generate_breakpoint_events", canGenerateBreakpointEvents),
    ("can_generate_method_entry_events", canGenerateMethodEntryEvents),
    ("can_generate_method_exit_events", canGenerateMethodExitEvents),
    ("can_get_bytecodes", canGetBytecodes),
    ("can_suspend", canSuspend)]

/-- The members that are written for capabilities. -/
def entries (c : Capabilities) : List (String × Json) :=
  flags.map fun flag => (flag.1, .bool (flag.2 c))

/-- What is written has the names that are read, and no others. -/
theorem knownOr?_toJson (c : Capabilities) : c.toJson.knownOr? names = some c.entries := rfl

theorem mem_names {flag : String × (Capabilities → Bool)} (hflag : flag ∈ flags) :
    flag.1 ∈ names :=
  List.mem_map_of_mem hflag

theorem lookup_entries {flag : String × (Capabilities → Bool)} (hflag : flag ∈ flags)
    (c : Capabilities) : c.entries.lookup flag.1 = some (.bool (flag.2 c)) := by
  have hdistinct : (c.entries.map Prod.fst).Nodup := (by decide : names.Nodup)
  let table : Table String Json := ⟨c.entries, hdistinct⟩
  exact (Table.mem_entries (t := table)).mp (List.mem_map_of_mem hflag)

theorem eq_of_flags {c b : Capabilities} (h : ∀ flag ∈ flags, flag.2 c = flag.2 b) : c = b := by
  cases c
  cases b
  simp_all [flags]

/-- Capabilities are read one by one. -/
theorem ofJson?_eq_some {j : Json} {c : Capabilities} : ofJson? j = some c ↔
    ∃ known, j.knownOr? names = some known ∧
      ∀ flag ∈ flags, fieldOr? known flag.1 (flag.2 {}) bool? = some (flag.2 c) := by
  rw [ofJson?]
  -- Each read stands under all reads before it, so they are taken apart from the outside.
  simp only [↓bind_eq_some, flags, List.forall_mem_cons]
  refine exists_congr fun known => and_congr_right fun _ => ?_
  constructor
  · rintro ⟨_, h₁, _, h₂, _, h₃, _, h₄, _, h₅, _, h₆, _, h₇, _, h₈, _, h₉, _, h₁₀, _, h₁₁, _, h₁₂,
      _, h₁₃, ⟨⟩⟩
    exact ⟨h₁, h₂, h₃, h₄, h₅, h₆, h₇, h₈, h₉, h₁₀, h₁₁, h₁₂, h₁₃, List.forall_mem_nil _⟩
  · rintro ⟨h₁, h₂, h₃, h₄, h₅, h₆, h₇, h₈, h₉, h₁₀, h₁₁, h₁₂, h₁₃, -⟩
    exact ⟨_, h₁, _, h₂, _, h₃, _, h₄, _, h₅, _, h₆, _, h₇, _, h₈, _, h₉, _, h₁₀, _, h₁₁, _, h₁₂,
      _, h₁₃, rfl⟩

theorem restores : Restores toJson ofJson? fun _ => True := by
  intro c b
  have hread : ofJson? c.toJson = some b ↔ ∀ flag ∈ flags, flag.2 c = flag.2 b := by
    simp only [ofJson?_eq_some, knownOr?_toJson, Option.some.injEq, exists_eq_left']
    refine forall₂_congr fun flag hflag => ?_
    simp [fieldOr?, lookup_entries hflag, bool?]
  rw [hread, true_and]
  exact ⟨eq_of_flags, fun h _ _ => h ▸ rfl⟩

theorem ofJson?_object {members : List (Option String × Json)} {c : Capabilities} :
    ofJson? (.object members) = some c ↔ WellNamed names members ∧ ∀ flag ∈ flags,
      Decides members flag.1 (flag.2 {}) (fun value b => value = .bool b) (flag.2 c) := by
  rw [ofJson?_eq_some]
  refine exists_known_iff fun known hknown => forall₂_congr fun flag hflag => ?_
  rw [fieldOr?_eq_some_iff hknown (mem_names hflag)]
  simp only [bool?_eq_some]

end Capabilities

/-! ### Configurations -/

namespace Config

/-- The names of what can be configured. -/
def names : List String := ["capabilities", "description", "jdwp_major", "jdwp_minor"]

def InRange (c : Config) : Prop := IsInt32 c.major ∧ IsInt32 c.minor

theorem restores : Restores toJson ofJson? InRange := by
  intro c b
  simp [ofJson?, toJson, InRange, Option.bind_eq_some_iff, Capabilities.restores _ _, and_assoc]

theorem ofJson?_object {members : List (Option String × Json)} {c : Config} :
    ofJson? (.object members) = some c ↔ WellNamed names members ∧
      Decides members "capabilities" {} (fun value a => Capabilities.ofJson? value = some a)
        c.capabilities ∧
      Decides members "description" "JDWP bridge over JVMTI" (fun value s => value = .ofString s)
        c.description ∧
      Decides members "jdwp_major" 1 GivesInt32 c.major ∧
      Decides members "jdwp_minor" 8 GivesInt32 c.minor := by
  rw [ofJson?]
  simp only [↓bind_eq_some]
  refine exists_known_iff fun known hknown => ?_
  simp only [fieldOr?_eq_some_iff hknown (show "capabilities" ∈ names by decide),
    fieldOr?_eq_some_iff hknown (show "description" ∈ names by decide),
    fieldOr?_eq_some_iff hknown (show "jdwp_major" ∈ names by decide),
    fieldOr?_eq_some_iff hknown (show "jdwp_minor" ∈ names by decide),
    string?_eq_some, int32?_eq_some]
  constructor
  · rintro ⟨_, hcapabilities, _, hdescription, _, hmajor, _, hminor, ⟨⟩⟩
    exact ⟨hcapabilities, hdescription, hmajor, hminor⟩
  · rintro ⟨hcapabilities, hdescription, hmajor, hminor⟩
    exact ⟨_, hcapabilities, _, hdescription, _, hmajor, _, hminor, rfl⟩

end Config

/-- What is written is read back, and nothing else is read from it: events with all their details,
modifiers, locations, capabilities, configurations and the other records, if their integers have the
width that the protocol gives them.  From any object that is well named, capabilities and
configurations are read member by member, each for itself, and what is absent has its default. -/
theorem records_read_back :
    Restores EventSet.toJson EventSet.ofJson? EventSet.InRange ∧
    Restores EventModifier.toJson EventModifier.ofJson? EventModifier.InRange ∧
    Restores Location.toJson (Location.ofJson? .direct) Location.InRange ∧
    Restores Capabilities.toJson Capabilities.ofJson? (fun _ => True) ∧
    Restores Config.toJson Config.ofJson? Config.InRange ∧
    Restores ReferenceType.toJson ReferenceType.ofJson? ReferenceType.InRange ∧
    Restores VariableTable.toJson VariableTable.ofJson? VariableTable.InRange ∧
    Restores LineTable.toJson LineTable.ofJson? LineTable.InRange ∧
    Restores FrameInfo.toJson FrameInfo.ofJson? FrameInfo.InRange ∧
    Restores VmVersion.toJson VmVersion.ofJson? VmVersion.InRange ∧
    Restores DisposeRequest.toJson DisposeRequest.ofJson? DisposeRequest.InRange ∧
    (∀ members c, Capabilities.ofJson? (.object members) = some c ↔
      WellNamed Capabilities.names members ∧ ∀ flag ∈ Capabilities.flags,
        Decides members flag.1 (flag.2 {}) (fun value b => value = .bool b) (flag.2 c)) ∧
    (∀ members c, Config.ofJson? (.object members) = some c ↔ WellNamed Config.names members ∧
      Decides members "capabilities" {} (fun value a => Capabilities.ofJson? value = some a)
        c.capabilities ∧
      Decides members "description" "JDWP bridge over JVMTI" (fun value s => value = .ofString s)
        c.description ∧
      Decides members "jdwp_major" 1 GivesInt32 c.major ∧
      Decides members "jdwp_minor" 8 GivesInt32 c.minor) :=
  ⟨EventSet.restores, EventModifier.restores, Location.restores .direct, Capabilities.restores,
    Config.restores, ReferenceType.restores, VariableTable.restores, LineTable.restores,
    FrameInfo.restores, VmVersion.restores, DisposeRequest.restores,
    fun _ _ => Capabilities.ofJson?_object, fun _ _ => Config.ofJson?_object⟩

end DebugAgent
