import DebugAgent.Event.Codec
import DebugAgent.Proofs.Breakpoints
import DebugAgent.Proofs.Restart
import DebugAgent.Proofs.Wanted
import DebugAgent.Service
import DebugAgent.Vm.Builder
import DebugAgent.Proofs.Balance
import DebugAgent.Proofs.Globals
import DebugAgent.Proofs.OwnThreads
import DebugAgent.Proofs.ClassNames
import DebugAgent.Proofs.Gone
import DebugAgent.Proofs.Countdown
import DebugAgent.Proofs.Cleared
import DebugAgent.Proofs.Session
import DebugAgent.Proofs.VmDeath
import DebugAgent.Proofs.Suspending
import DebugAgent.Proofs.Delivered
import DebugAgent.Proofs.Closed
import DebugAgent.Proofs.Calls
import DebugAgent.Proofs.Intact
import DebugAgent.Proofs.Unbroken
import DebugAgent.Proofs.Undisturbed
import DebugAgent.Proofs.Undone
import DebugAgent.Proofs.Halfway
import DebugAgent.Proofs.StepReferences
import DebugAgent.Proofs.Repaid
import DebugAgent.Proofs.Independence
import DebugAgent.Proofs.Silenced
import DebugAgent.Proofs.StepRequests
import DebugAgent.Proofs.Stepping
import DebugAgent.Proofs.StepView
import DebugAgent.Proofs.Footing
import DebugAgent.Proofs.SideBySide
import DebugAgent.Proofs.Signatures
import DebugAgent.Proofs.Hierarchy
import DebugAgent.Proofs.Told
import DebugAgent.Proofs.FieldValues
import DebugAgent.Proofs.Lockstep
import DebugAgent.Proofs.Renumbered
import DebugAgent.Proofs.InStep
import DebugAgent.Proofs.CommandsInStep
import DebugAgent.Proofs.CallbacksInStep
import DebugAgent.Proofs.AnyOrder
import DebugAgent.Proofs.Lasting
import DebugAgent.Proofs.Settled
import DebugAgent.Proofs.ArrayReads
import DebugAgent.Proofs.StackFrames
import DebugAgent.Proofs.FrameVariables
import DebugAgent.Proofs.FrameLists
import DebugAgent.Proofs.ValueTags
import DebugAgent.Proofs.Reopened
import DebugAgent.Proofs.ValuesInTurn
import DebugAgent.Proofs.Alone
import DebugAgent.Proofs.Listings
import DebugAgent.Proofs.Occurrences
import DebugAgent.Proofs.ToldPositions
import DebugAgent.Proofs.ToldBreakpoints
import DebugAgent.Proofs.Tables
import DebugAgent.Proofs.Totals
import DebugAgent.Proofs.StoppedAndResumed
import DebugAgent.Proofs.BreakpointsCleared
import DebugAgent.Proofs.Assignable
import DebugAgent.Proofs.ReadBack
import DebugAgent.Proofs.Defaults
import DebugAgent.Proofs.UntoldKinds
import DebugAgent.Proofs.ClassPatterns
