/-!
# Bit masks of the machine

Thread states, class statuses and access flags are masks of 32 bits.  The protocol shows a coarser
picture: one status per thread, whether it is suspended, and the low four bits of a class status.
-/

namespace DebugAgent

/-! ### Bits of a thread state -/

namespace ThreadState

def alive : Int32 := 0x0001
def terminated : Int32 := 0x0002
def runnable : Int32 := 0x0004
def sleeping : Int32 := 0x0040
def waiting : Int32 := 0x0080
def blockedOnMonitorEnter : Int32 := 0x0400
def suspended : Int32 := 0x100000

/-- The state of a thread that has just been started. -/
def started : Int32 := alive ||| runnable

end ThreadState

/-! ### Bits of the class status of the machine -/

namespace ClassState

def verified : Int32 := 1
def prepared : Int32 := 2
def initialized : Int32 := 4
def array : Int32 := 16

/-- The status of a class that is ready for use. -/
def ready : Int32 := verified ||| prepared ||| initialized

end ClassState

/-! ### Access flags of classes, fields and methods -/

namespace Access

def isPublic : Int32 := 0x0001
def isPrivate : Int32 := 0x0002
def isStatic : Int32 := 0x0008
def isNative : Int32 := 0x0100
def isInterface : Int32 := 0x0200
def isAbstract : Int32 := 0x0400

end Access

/-- Some bit of `flags` is set in `mask`. -/
def hasAny (mask flags : Int32) : Bool := mask &&& flags != 0

/-- What a thread is doing, as far as the protocol tells. -/
inductive ThreadStatus where
  | zombie
  | running
  | sleeping
  | monitor
  | wait
  deriving DecidableEq, Repr

namespace ThreadStatus

/-- Several bits of a state may apply; a thread blocked on a monitor counts as that first, then come
sleeping, terminated and waiting threads. -/
def ofState (state : Int32) : ThreadStatus :=
  if hasAny state ThreadState.blockedOnMonitorEnter then .monitor
  else if hasAny state ThreadState.sleeping then .sleeping
  else if hasAny state ThreadState.terminated then .zombie
  else if hasAny state ThreadState.waiting then .wait
  else .running

def name : ThreadStatus → String
  | .zombie => "Zombie"
  | .running => "Running"
  | .sleeping => "Sleeping"
  | .monitor => "Monitor"
  | .wait => "Wait"

def code : ThreadStatus → Nat
  | .zombie => 0
  | .running => 1
  | .sleeping => 2
  | .monitor => 3
  | .wait => 4

end ThreadStatus

inductive SuspendStatus where
  | running
  | suspended
  deriving DecidableEq, Repr

namespace SuspendStatus

def ofState (state : Int32) : SuspendStatus :=
  if hasAny state ThreadState.suspended then .suspended else .running

def name : SuspendStatus → String
  | .running => "Running"
  | .suspended => "Suspended"

def code : SuspendStatus → Nat
  | .running => 0
  | .suspended => 1

end SuspendStatus

/-- Class status bits of the protocol. -/
structure ClassStatus where
  bits : Int32
  deriving DecidableEq, Repr

namespace ClassStatus

/-- The protocol shows the low four bits of the machine's class status. -/
def ofState (state : Int32) : ClassStatus := ⟨state &&& 0xF⟩

def prepared : ClassStatus := ⟨ClassState.prepared⟩

/-- Every bit of `other` is set. -/
def contains (status other : ClassStatus) : Bool :=
  status.bits &&& other.bits == other.bits

end ClassStatus

end DebugAgent
