import DebugAgent.ProtocolError

/-!
# Errors of the tool interface

The simulated machine answers a failed call of its tool interface with a `JvmtiError`.  The protocol
knows fewer causes: `JvmtiError.toProtocol` keeps every cause that the protocol can name and turns
the rest into `internal`.
-/

namespace DebugAgent

/-- Why a call of the tool interface failed.  `unknown` carries a number that has no name. -/
inductive JvmtiError where
  | invalidThread
  | invalidThreadGroup
  | invalidPriority
  | threadNotSuspended
  | threadSuspended
  | threadNotAlive
  | invalidObject
  | invalidClass
  | classNotPrepared
  | invalidMethodId
  | invalidLocation
  | invalidFieldId
  | noMoreFrames
  | opaqueFrame
  | typeMismatch
  | invalidSlot
  | duplicate
  | notFound
  | invalidMonitor
  | notMonitorOwner
  | interrupt
  | invalidClassFormat
  | circularClassDefinition
  | failsVerification
  | unsupportedRedefinitionMethodAdded
  | unsupportedRedefinitionSchemaChanged
  | invalidTypestate
  | unsupportedRedefinitionHierarchyChanged
  | unsupportedRedefinitionMethodDeleted
  | unsupportedVersion
  | namesDontMatch
  | unsupportedRedefinitionClassModifiersChanged
  | unsupportedRedefinitionMethodModifiersChanged
  | unmodifiableClass
  | notAvailable
  | mustPossessCapability
  | nullPointer
  | absentInformation
  | invalidEventType
  | illegalArgument
  | nativeMethod
  | classLoaderUnsupported
  | outOfMemory
  | accessDenied
  | wrongPhase
  | internal
  | unattachedThread
  | invalidEnvironment
  | unknown (code : UInt32)
  deriving DecidableEq, Repr

namespace JvmtiError

/-- Every failure that has a name. -/
def named : List JvmtiError :=
  [.invalidThread, .invalidThreadGroup, .invalidPriority, .threadNotSuspended, .threadSuspended,
    .threadNotAlive, .invalidObject, .invalidClass, .classNotPrepared, .invalidMethodId,
    .invalidLocation, .invalidFieldId, .noMoreFrames, .opaqueFrame, .typeMismatch, .invalidSlot,
    .duplicate, .notFound, .invalidMonitor, .notMonitorOwner, .interrupt, .invalidClassFormat,
    .circularClassDefinition, .failsVerification, .unsupportedRedefinitionMethodAdded,
    .unsupportedRedefinitionSchemaChanged, .invalidTypestate,
    .unsupportedRedefinitionHierarchyChanged, .unsupportedRedefinitionMethodDeleted,
    .unsupportedVersion, .namesDontMatch, .unsupportedRedefinitionClassModifiersChanged,
    .unsupportedRedefinitionMethodModifiersChanged, .unmodifiableClass, .notAvailable,
    .mustPossessCapability, .nullPointer, .absentInformation, .invalidEventType,
    .illegalArgument, .nativeMethod, .classLoaderUnsupported, .outOfMemory, .accessDenied,
    .wrongPhase, .internal, .unattachedThread, .invalidEnvironment]

/-- The text that reports a failed call. -/
def message : JvmtiError → String
  | .invalidThread => "JVMTI_ERROR_INVALID_THREAD"
  | .invalidThreadGroup => "JVMTI_ERROR_INVALID_THREAD_GROUP"
  | .invalidPriority => "JVMTI_ERROR_INVALID_PRIORITY"
  | .threadNotSuspended => "JVMTI_ERROR_THREAD_NOT_SUSPENDED"
  | .threadSuspended => "JVMTI_ERROR_THREAD_SUSPENDED"
  | .threadNotAlive => "JVMTI_ERROR_THREAD_NOT_ALIVE"
  | .invalidObject => "JVMTI_ERROR_INVALID_OBJECT"
  | .invalidClass => "JVMTI_ERROR_INVALID_CLASS"
  | .classNotPrepared => "JVMTI_ERROR_CLASS_NOT_PREPARED"
  | .invalidMethodId => "JVMTI_ERROR_INVALID_METHODID"
  | .invalidLocation => "JVMTI_ERROR_INVALID_LOCATION"
  | .invalidFieldId => "JVMTI_ERROR_INVALID_FIELDID"
  | .noMoreFrames => "JVMTI_ERROR_NO_MORE_FRAMES"
  | .opaqueFrame => "JVMTI_ERROR_OPAQUE_FRAME"
  | .typeMismatch => "JVMTI_ERROR_TYPE_MISMATCH"
  | .invalidSlot => "JVMTI_ERROR_INVALID_SLOT"
  | .duplicate => "JVMTI_ERROR_DUPLICATE"
  | .notFound => "JVMTI_ERROR_NOT_FOUND"
  | .invalidMonitor => "JVMTI_ERROR_INVALID_MONITOR"
  | .notMonitorOwner => "JVMTI_ERROR_NOT_MONITOR_OWNER"
  | .interrupt => "JVMTI_ERROR_INTERRUPT"
  | .invalidClassFormat => "JVMTI_ERROR_INVALID_CLASS_FORMAT"
  | .circularClassDefinition => "JVMTI_ERROR_CIRCULAR_CLASS_DEFINITION"
  | .failsVerification => "JVMTI_ERROR_FAILS_VERIFICATION"
  | .unsupportedRedefinitionMethodAdded => "JVMTI_ERROR_UNSUPPORTED_REDEFINITION_METHOD_ADDED"
  | .unsupportedRedefinitionSchemaChanged => "JVMTI_ERROR_UNSUPPORTED_REDEFINITION_SCHEMA_CHANGED"
  | .invalidTypestate => "JVMTI_ERROR_INVALID_TYPESTATE"
  | .unsupportedRedefinitionHierarchyChanged =>
      "JVMTI_ERROR_UNSUPPORTED_REDEFINITION_HIERARCHY_CHANGED"
  | .unsupportedRedefinitionMethodDeleted => "JVMTI_ERROR_UNSUPPORTED_REDEFINITION_METHOD_DELETED"
  | .unsupportedVersion => "JVMTI_ERROR_UNSUPPORTED_VERSION"
  | .namesDontMatch => "JVMTI_ERROR_NAMES_DONT_MATCH"
  | .unsupportedRedefinitionClassModifiersChanged =>
      "JVMTI_ERROR_UNSUPPORTED_REDEFINITION_CLASS_MODIFIERS_CHANGED"
  | .unsupportedRedefinitionMethodModifiersChanged =>
      "JVMTI_ERROR_UNSUPPORTED_REDEFINITION_METHOD_MODIFIERS_CHANGED"
  | .unmodifiableClass => "JVMTI_ERROR_UNMODIFIABLE_CLASS"
  | .notAvailable => "JVMTI_ERROR_NOT_AVAILABLE"
  | .mustPossessCapability => "JVMTI_ERROR_MUST_POSSESS_CAPABILITY"
  | .nullPointer => "JVMTI_ERROR_NULL_POINTER"
  | .absentInformation => "JVMTI_ERROR_ABSENT_INFORMATION"
  | .invalidEventType => "JVMTI_ERROR_INVALID_EVENT_TYPE"
  | .illegalArgument => "JVMTI_ERROR_ILLEGAL_ARGUMENT"
  | .nativeMethod => "JVMTI_ERROR_NATIVE_METHOD"
  | .classLoaderUnsupported => "JVMTI_ERROR_CLASS_LOADER_UNSUPPORTED"
  | .outOfMemory => "JVMTI_ERROR_OUT_OF_MEMORY"
  | .accessDenied => "JVMTI_ERROR_ACCESS_DENIED"
  | .wrongPhase => "JVMTI_ERROR_WRONG_PHASE"
  | .internal => "JVMTI_ERROR_INTERNAL"
  | .unattachedThread => "JVMTI_ERROR_UNATTACHED_THREAD"
  | .invalidEnvironment => "JVMTI_ERROR_INVALID_ENVIRONMENT"
  | .unknown code => "unrecognized JVMTI error code " ++ toString code.toNat

/-- The protocol's cause for a failed call.  A missing capability means that the command is not
implemented; a cause the protocol cannot name is internal. -/
def toProtocol : JvmtiError → ProtocolError
  | .invalidThread => .invalidThread
  | .invalidThreadGroup => .invalidThreadGroup
  | .invalidPriority => .invalidPriority
  | .threadNotSuspended => .threadNotSuspended
  | .threadSuspended => .threadSuspended
  | .invalidObject => .invalidObject
  | .invalidClass => .invalidClass
  | .classNotPrepared => .classNotPrepared
  | .invalidMethodId => .invalidMethodId
  | .invalidLocation => .invalidLocation
  | .invalidFieldId => .invalidFieldId
  | .noMoreFrames => .noMoreFrames
  | .opaqueFrame => .opaqueFrame
  | .typeMismatch => .typeMismatch
  | .invalidSlot => .invalidSlot
  | .duplicate => .duplicate
  | .notFound => .notFound
  | .invalidMonitor => .invalidMonitor
  | .notMonitorOwner => .notMonitorOwner
  | .interrupt => .interrupt
  | .invalidClassFormat => .invalidClassFormat
  | .circularClassDefinition => .circularClassDefinition
  | .failsVerification => .failsVerification
  | .unsupportedRedefinitionMethodAdded => .addMethodNotImplemented
  | .unsupportedRedefinitionSchemaChanged => .schemaChangeNotImplemented
  | .invalidTypestate => .invalidTypestate
  | .unsupportedRedefinitionHierarchyChanged => .hierarchyChangeNotImplemented
  | .unsupportedRedefinitionMethodDeleted => .deleteMethodNotImplemented
  | .unsupportedVersion => .unsupportedVersion
  | .namesDontMatch => .namesDontMatch
  | .unsupportedRedefinitionClassModifiersChanged => .classModifiersChangeNotImplemented
  | .unsupportedRedefinitionMethodModifiersChanged => .methodModifiersChangeNotImplemented
  | .mustPossessCapability => .notImplemented
  | .nullPointer => .nullPointer
  | .absentInformation => .absentInformation
  | .invalidEventType => .invalidEventType
  | .illegalArgument => .illegalArgument
  | .nativeMethod => .nativeMethod
  | .classLoaderUnsupported => .invalidClassLoader
  | .outOfMemory => .outOfMemory
  | .accessDenied => .accessDenied
  | .internal => .internal
  | .unattachedThread => .unattachedThread
  | .threadNotAlive | .unmodifiableClass | .notAvailable | .wrongPhase | .invalidEnvironment
  | .unknown _ => .internal

end JvmtiError

/-- The text that reports a failed call of the invocation interface, which names its failures by a
number only. -/
def invocationErrorMessage (code : Int) : String :=
  "JNI error code " ++ toString code

end DebugAgent
