import DebugAgent.Command.Class
import DebugAgent.Command.EventRequest
import DebugAgent.Command.Frame
import DebugAgent.Command.Machine
import DebugAgent.Command.Method
import DebugAgent.Command.Object
import DebugAgent.Command.Thread
import DebugAgent.Delivery

/-!
# The service

Everything that the client can ask for, and what it gets.  `Agent.serve` answers a command that some
native thread of the client's connection issues.
-/

namespace DebugAgent

/-- Commands that belong to the protocol and that the agent does not carry out, whatever their
arguments. -/
inductive ReservedCommand where
  | dispose
  | exit
  | createString
  | redefineClasses
  | holdEvents
  | releaseEvents
  | superclass
  | classLoader
  | setArrayValues
  | invokeMethod
  | stopThread
  | interruptThread
  | threadGroupName
  | threadGroupParent
  | threadGroupChildren
  | setFrameValues
  | popFrames
  deriving DecidableEq, Repr

def ReservedCommand.all : List ReservedCommand :=
  [.dispose, .exit, .createString, .redefineClasses, .holdEvents, .releaseEvents, .superclass,
    .classLoader, .setArrayValues, .invokeMethod, .stopThread, .interruptThread, .threadGroupName,
    .threadGroupParent, .threadGroupChildren, .setFrameValues, .popFrames]

/-- What the client can ask for. -/
inductive ClientCommand where
  | version
  | allClasses
  | classesBySignature (signature : String)
  | allThreads
  | topLevelThreadGroups
  | suspend
  | resume
  | disposeObjects (requests : List DisposeRequest)
  | capabilities
  | signature (refType : ObjectId)
  | signatureWithGeneric (refType : ObjectId)
  | modifiers (refType : ObjectId)
  | fields (refType : ObjectId)
  | methods (refType : ObjectId)
  | staticValues (refType : ObjectId) (fields : List FieldId)
  | sourceFile (refType : ObjectId)
  | classStatus (refType : ObjectId)
  | interfaces (refType : ObjectId)
  | lineTable (refType : ObjectId) (method : MethodId)
  | variableTable (refType : ObjectId) (method : MethodId)
  | bytecodes (refType : ObjectId) (method : MethodId)
  | referenceType (object : ObjectId)
  | objectValues (object : ObjectId) (fields : List FieldId)
  | stringValue (string : ObjectId)
  | arrayLength (array : ObjectId)
  | arrayValues (array : ObjectId) (first length : Int)
  | threadName (thread : ObjectId)
  | suspendThread (thread : ObjectId)
  | resumeThread (thread : ObjectId)
  | threadStatus (thread : ObjectId)
  | threadGroup (thread : ObjectId)
  | frames (thread : ObjectId) (start length : Int)
  | frameCount (thread : ObjectId)
  | suspendCount (thread : ObjectId)
  | frameValues (thread : ObjectId) (frame : FrameId) (slots : List Int)
  | thisObject (thread : ObjectId) (frame : FrameId)
  | setEvent (kindCode : Nat) (policy : SuspendPolicy) (modifiers : List EventModifier)
  | clearEvent (kindCode : Nat) (request : RequestId)
  | setBreakpoint (location : Location) (policy : SuspendPolicy)
  | clearBreakpoint (request : RequestId)
  | clearAllBreakpoints
  | reserved (command : ReservedCommand)
  deriving DecidableEq, Repr

/-- What the client gets. -/
inductive Reply where
  | done
  | version (version : VmVersion)
  | classes (classes : List ReferenceType)
  | objects (ids : List ObjectId)
  | object (id : ObjectId)
  | capabilities (capabilities : Capabilities)
  | text (text : String)
  | signatures (signature : String) (generic : Option String)
  | modifiers (bits : Int32)
  | fields (fields : List DeclaredField)
  | methods (methods : List DeclaredMethod)
  | values (values : List Value)
  | classStatus (status : ClassStatus)
  | lineTable (table : LineTable)
  | variableTable (table : VariableTable)
  | bytecodes (bytes : List UInt8)
  | typeId (id : TaggedTypeId)
  | number (n : Int)
  | threadStatus (status : ThreadStatus) (suspension : SuspendStatus)
  | frames (frames : List FrameInfo)
  | receiver (object : Option TaggedObjectId)
  | request (id : RequestId)
  deriving DecidableEq, Repr

namespace Command

/-- A command that has nothing to tell. -/
def done (x : Command Unit) : Command Reply := do
  x
  return .done

/-- What a command does for the native thread that issues it.  The capabilities are those of the
configuration, granted or not. -/
def ofClient (caller : NativeThread) : ClientCommand → Command Reply
  | .version => .version <$> Machine.version
  | .allClasses => .classes <$> Machine.allClasses
  | .classesBySignature signature => .classes <$> Machine.classesBySignature signature
  | .allThreads => .objects <$> Machine.allThreads
  | .topLevelThreadGroups => .objects <$> Machine.topLevelThreadGroups
  | .suspend => done <| Suspension.suspendAll caller
  | .resume => done <| Suspension.resumeAll
  | .disposeObjects requests => done <| Machine.disposeObjects requests
  | .capabilities => Action.look fun a => .capabilities a.config.capabilities
  | .signature refType => .text <$> Class.signature refType
  | .signatureWithGeneric refType => do
      let (signature, generic) ← Class.signatureWithGeneric refType
      return .signatures signature generic
  | .modifiers refType => .modifiers <$> Class.modifiers refType
  | .fields refType => .fields <$> Class.fields refType
  | .methods refType => .methods <$> Class.methods refType
  | .staticValues refType fields => .values <$> Class.values refType fields
  | .sourceFile refType => .text <$> Class.sourceFile refType
  | .classStatus refType => .classStatus <$> Class.status refType
  | .interfaces refType => .objects <$> Class.interfaces refType
  | .lineTable refType method => .lineTable <$> Method.lineTable refType method
  | .variableTable refType method => .variableTable <$> Method.variableTable refType method
  | .bytecodes refType method => .bytecodes <$> Method.bytecodes refType method
  | .referenceType object => .typeId <$> Object.referenceType object
  | .objectValues object fields => .values <$> Object.values object fields
  | .stringValue string => .text <$> Object.stringValue string
  | .arrayLength array => .number <$> Object.arrayLength array
  | .arrayValues array first length => .values <$> Object.arrayValues array first length
  | .threadName thread => .text <$> Thread.name thread
  | .suspendThread thread => done <| Suspension.suspend caller thread
  | .resumeThread thread => done <| Suspension.resume thread
  | .threadStatus thread => do
      let (status, suspension) ← Thread.status thread
      return .threadStatus status suspension
  | .threadGroup thread => .object <$> Thread.group thread
  | .frames thread start length => .frames <$> Thread.frames thread start length
  | .frameCount thread => .number <$> Thread.frameCount thread
  | .suspendCount thread => .number <$> Thread.suspendCount thread
  | .frameValues thread frame slots => .values <$> Frame.values thread frame slots
  | .thisObject thread frame => .receiver <$> Frame.thisObject thread frame
  | .setEvent kindCode policy modifiers => .request <$> EventRequest.set kindCode policy modifiers
  | .clearEvent kindCode request => done <| EventRequest.clear kindCode request
  | .setBreakpoint location policy => .request <$> EventRequest.setBreakpoint location policy
  | .clearBreakpoint request => done <| EventRequest.clearBreakpoint request
  | .clearAllBreakpoints => done <| Registration.clearBreakpoints
  | .reserved _ => Action.refuse .notImplemented

end Command

namespace Agent

/-- Answers a command that a native thread issues.  Only the capabilities are told without a look at
the machine, so they are told even to a thread that cannot be attached. -/
def serve (caller : NativeThread) : ClientCommand → Answer Reply
  | .capabilities => fun a => (.ok (.capabilities a.config.capabilities), a)
  | command => Command.answer caller (Command.ofClient caller command)

end Agent

end DebugAgent
