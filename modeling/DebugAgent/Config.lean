import DebugAgent.Json.Parser
import DebugAgent.Json.Reader

/-!
# Configuration

What the agent asks the machine for when it starts, and how it introduces itself.  A configuration
is read from JSON text; members that are absent keep their defaults.
-/

namespace DebugAgent

/-- Optional abilities of the machine.  Those not granted make the calls that need them fail. -/
structure Capabilities where
  canTagObjects : Bool := true
  canGetSyntheticAttribute : Bool := true
  canGetSourceFileName : Bool := true
  canGetLineNumbers : Bool := true
  canGetSourceDebugExtension : Bool := true
  canAccessLocalVariables : Bool := true
  canGenerateSingleStepEvents : Bool := true
  canGenerateExceptionEvents : Bool := true
  canGenerateBreakpointEvents : Bool := true
  canGenerateMethodEntryEvents : Bool := false
  canGenerateMethodExitEvents : Bool := false
  canGetBytecodes : Bool := true
  canSuspend : Bool := true
  deriving DecidableEq, Repr

namespace Capabilities

def toJson (c : Capabilities) : Json :=
  .record
    [("can_tag_objects", .bool c.canTagObjects),
      ("can_get_synthetic_attribute", .bool c.canGetSyntheticAttribute),
      ("can_get_source_file_name", .bool c.canGetSourceFileName),
      ("can_get_line_numbers", .bool c.canGetLineNumbers),
      ("can_get_source_debug_extension", .bool c.canGetSourceDebugExtension),
      ("can_access_local_variables", .bool c.canAccessLocalVariables),
      ("can_generate_single_step_events", .bool c.canGenerateSingleStepEvents),
      ("can_generate_exception_events", .bool c.canGenerateExceptionEvents),
      ("can_generate_breakpoint_events", .bool c.canGenerateBreakpointEvents),
      ("can_generate_method_entry_events", .bool c.canGenerateMethodEntryEvents),
      ("can_generate_method_exit_events", .bool c.canGenerateMethodExitEvents),
      ("can_get_bytecodes", .bool c.canGetBytecodes),
      ("can_suspend", .bool c.canSuspend)]

/-- The names of the capabilities in records. -/
def names : List String :=
  ["can_tag_objects", "can_get_synthetic_attribute", "can_get_source_file_name",
    "can_get_line_numbers", "can_get_source_debug_extension", "can_access_local_variables",
    "can_generate_single_step_events", "can_generate_exception_events",
    "can_generate_breakpoint_events", "can_generate_method_entry_events",
    "can_generate_method_exit_events", "can_get_bytecodes", "can_suspend"]

/-- Capabilities that are absent keep their defaults. -/
def ofJson? (j : Json) : Option Capabilities := do
  let members ← j.knownOr? names
  let flag (name : String) (default : Bool) := Json.fieldOr? members name default Json.bool?
  let std : Capabilities := {}
  return {
    canTagObjects := ← flag "can_tag_objects" std.canTagObjects
    canGetSyntheticAttribute := ← flag "can_get_synthetic_attribute" std.canGetSyntheticAttribute
    canGetSourceFileName := ← flag "can_get_source_file_name" std.canGetSourceFileName
    canGetLineNumbers := ← flag "can_get_line_numbers" std.canGetLineNumbers
    canGetSourceDebugExtension :=
      ← flag "can_get_source_debug_extension" std.canGetSourceDebugExtension
    canAccessLocalVariables := ← flag "can_access_local_variables" std.canAccessLocalVariables
    canGenerateSingleStepEvents :=
      ← flag "can_generate_single_step_events" std.canGenerateSingleStepEvents
    canGenerateExceptionEvents :=
      ← flag "can_generate_exception_events" std.canGenerateExceptionEvents
    canGenerateBreakpointEvents :=
      ← flag "can_generate_breakpoint_events" std.canGenerateBreakpointEvents
    canGenerateMethodEntryEvents :=
      ← flag "can_generate_method_entry_events" std.canGenerateMethodEntryEvents
    canGenerateMethodExitEvents :=
      ← flag "can_generate_method_exit_events" std.canGenerateMethodExitEvents
    canGetBytecodes := ← flag "can_get_bytecodes" std.canGetBytecodes
    canSuspend := ← flag "can_suspend" std.canSuspend }

end Capabilities

/-- The configuration of an agent. -/
structure Config where
  capabilities : Capabilities := {}
  /-- How the agent describes itself. -/
  description : String := "JDWP bridge over JVMTI"
  major : Int := 1
  minor : Int := 8
  deriving DecidableEq, Repr

namespace Config

def toJson (c : Config) : Json :=
  .record
    [("capabilities", c.capabilities.toJson), ("description", .ofString c.description),
      ("jdwp_major", .ofInt c.major), ("jdwp_minor", .ofInt c.minor)]

/-- Members that are absent keep their defaults. -/
def ofJson? (j : Json) : Option Config := do
  let members ← j.knownOr? ["capabilities", "description", "jdwp_major", "jdwp_minor"]
  let std : Config := {}
  let capabilities ←
    Json.fieldOr? members "capabilities" std.capabilities Capabilities.ofJson?
  let description ← Json.fieldOr? members "description" std.description Json.string?
  let major ← Json.fieldOr? members "jdwp_major" std.major Json.int32?
  let minor ← Json.fieldOr? members "jdwp_minor" std.minor Json.int32?
  return ⟨capabilities, description, major, minor⟩

/-- Reads a configuration from JSON text. -/
def parse? (text : String) : Option Config :=
  (Json.parse? text).bind ofJson?

end Config

end DebugAgent
