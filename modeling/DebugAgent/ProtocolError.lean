/-!
# Errors of the debug protocol

Every refused command answers with one of these causes.  A cause has a fixed name on the wire and a
fixed numeric code; both belong to the protocol and never depend on the command that failed.
-/

namespace DebugAgent

/-- Why a command of the debug protocol was refused. -/
inductive ProtocolError where
  | invalidThread
  | invalidThreadGroup
  | invalidPriority
  | threadNotSuspended
  | threadSuspended
  | invalidObject
  | invalidClass
  | classNotPrepared
  | invalidMethodId
  | invalidLocation
  | invalidFieldId
  | invalidFrameId
  | noMoreFrames
  | opaqueFrame
  | typeMismatch
  | invalidSlot
  | duplicate
  | notFound
  | invalidMonitor
  | notMonitorOwner
  | interrupt
  | invalidClassFormat
  | circularClassDefinition
  | failsVerification
  | addMethodNotImplemented
  | schemaChangeNotImplemented
  | invalidTypestate
  | hierarchyChangeNotImplemented
  | deleteMethodNotImplemented
  | unsupportedVersion
  | namesDontMatch
  | classModifiersChangeNotImplemented
  | methodModifiersChangeNotImplemented
  | notImplemented
  | nullPointer
  | absentInformation
  | invalidEventType
  | illegalArgument
  | outOfMemory
  | accessDenied
  | vmDead
  | internal
  | unattachedThread
  | invalidTag
  | invalidIndex
  | invalidLength
  | invalidString
  | invalidClassLoader
  | invalidArray
  | nativeMethod
  deriving DecidableEq, Repr

namespace ProtocolError

/-- Every cause. -/
def all : List ProtocolError :=
  [.invalidThread, .invalidThreadGroup, .invalidPriority, .threadNotSuspended, .threadSuspended,
    .invalidObject, .invalidClass, .classNotPrepared, .invalidMethodId, .invalidLocation,
    .invalidFieldId, .invalidFrameId, .noMoreFrames, .opaqueFrame, .typeMismatch, .invalidSlot,
    .duplicate, .notFound, .invalidMonitor, .notMonitorOwner, .interrupt, .invalidClassFormat,
    .circularClassDefinition, .failsVerification, .addMethodNotImplemented,
    .schemaChangeNotImplemented, .invalidTypestate, .hierarchyChangeNotImplemented,
    .deleteMethodNotImplemented, .unsupportedVersion, .namesDontMatch,
    .classModifiersChangeNotImplemented, .methodModifiersChangeNotImplemented, .notImplemented,
    .nullPointer, .absentInformation, .invalidEventType, .illegalArgument, .outOfMemory,
    .accessDenied, .vmDead, .internal, .unattachedThread, .invalidTag, .invalidIndex,
    .invalidLength, .invalidString, .invalidClassLoader, .invalidArray, .nativeMethod]

/-- The protocol's own name of a cause. -/
def message : ProtocolError → String
  | .invalidThread => "INVALID_THREAD"
  | .invalidThreadGroup => "INVALID_THREAD_GROUP"
  | .invalidPriority => "INVALID_PRIORITY"
  | .threadNotSuspended => "THREAD_NOT_SUSPENDED"
  | .threadSuspended => "THREAD_SUSPENDED"
  | .invalidObject => "INVALID_OBJECT"
  | .invalidClass => "INVALID_CLASS"
  | .classNotPrepared => "CLASS_NOT_PREPARED"
  | .invalidMethodId => "INVALID_METHODID"
  | .invalidLocation => "INVALID_LOCATION"
  | .invalidFieldId => "INVALID_FIELDID"
  | .invalidFrameId => "INVALID_FRAMEID"
  | .noMoreFrames => "NO_MORE_FRAMES"
  | .opaqueFrame => "OPAQUE_FRAME"
  | .typeMismatch => "TYPE_MISMATCH"
  | .invalidSlot => "INVALID_SLOT"
  | .duplicate => "DUPLICATE"
  | .notFound => "NOT_FOUND"
  | .invalidMonitor => "INVALID_MONITOR"
  | .notMonitorOwner => "NOT_MONITOR_OWNER"
  | .interrupt => "INTERRUPT"
  | .invalidClassFormat => "INVALID_CLASS_FORMAT"
  | .circularClassDefinition => "CIRCULAR_CLASS_DEFINITION"
  | .failsVerification => "FAILS_VERIFICATION"
  | .addMethodNotImplemented => "ADD_METHOD_NOT_IMPLEMENTED"
  | .schemaChangeNotImplemented => "SCHEMA_CHANGE_NOT_IMPLEMENTED"
  | .invalidTypestate => "INVALID_TYPESTATE"
  | .hierarchyChangeNotImplemented => "HIERARCHY_CHANGE_NOT_IMPLEMENTED"
  | .deleteMethodNotImplemented => "DELETE_METHOD_NOT_IMPLEMENTED"
  | .unsupportedVersion => "UNSUPPORTED_VERSION"
  | .namesDontMatch => "NAMES_DONT_MATCH"
  | .classModifiersChangeNotImplemented => "CLASS_MODIFIERS_CHANGE_NOT_IMPLEMENTED"
  | .methodModifiersChangeNotImplemented => "METHOD_MODIFIERS_CHANGE_NOT_IMPLEMENTED"
  | .notImplemented => "NOT_IMPLEMENTED"
  | .nullPointer => "NULL_POINTER"
  | .absentInformation => "ABSENT_INFORMATION"
  | .invalidEventType => "INVALID_EVENT_TYPE"
  | .illegalArgument => "ILLEGAL_ARGUMENT"
  | .outOfMemory => "OUT_OF_MEMORY"
  | .accessDenied => "ACCESS_DENIED"
  | .vmDead => "VM_DEAD"
  | .internal => "INTERNAL"
  | .unattachedThread => "UNATTACHED_THREAD"
  | .invalidTag => "INVALID_TAG"
  | .invalidIndex => "INVALID_INDEX"
  | .invalidLength => "INVALID_LENGTH"
  | .invalidString => "INVALID_STRING"
  | .invalidClassLoader => "INVALID_CLASS_LOADER"
  | .invalidArray => "INVALID_ARRAY"
  | .nativeMethod => "NATIVE_METHOD"

/-- The protocol's number of a cause. -/
def code : ProtocolError → Nat
  | .invalidThread => 10
  | .invalidThreadGroup => 11
  | .invalidPriority => 12
  | .threadNotSuspended => 13
  | .threadSuspended => 14
  | .invalidObject => 20
  | .invalidClass => 21
  | .classNotPrepared => 22
  | .invalidMethodId => 23
  | .invalidLocation => 24
  | .invalidFieldId => 25
  | .invalidFrameId => 30
  | .noMoreFrames => 31
  | .opaqueFrame => 32
  | .typeMismatch => 34
  | .invalidSlot => 35
  | .duplicate => 40
  | .notFound => 41
  | .invalidMonitor => 50
  | .notMonitorOwner => 51
  | .interrupt => 52
  | .invalidClassFormat => 60
  | .circularClassDefinition => 61
  | .failsVerification => 62
  | .addMethodNotImplemented => 63
  | .schemaChangeNotImplemented => 64
  | .invalidTypestate => 65
  | .hierarchyChangeNotImplemented => 66
  | .deleteMethodNotImplemented => 67
  | .unsupportedVersion => 68
  | .namesDontMatch => 69
  | .classModifiersChangeNotImplemented => 70
  | .methodModifiersChangeNotImplemented => 71
  | .notImplemented => 99
  | .nullPointer => 100
  | .absentInformation => 101
  | .invalidEventType => 102
  | .illegalArgument => 103
  | .outOfMemory => 110
  | .accessDenied => 111
  | .vmDead => 112
  | .internal => 113
  | .unattachedThread => 115
  | .invalidTag => 500
  | .invalidIndex => 503
  | .invalidLength => 504
  | .invalidString => 506
  | .invalidClassLoader => 507
  | .invalidArray => 508
  | .nativeMethod => 511

end ProtocolError

end DebugAgent
