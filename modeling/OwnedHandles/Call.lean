import OwnedHandles.Access
import OwnedHandles.Arguments
import OwnedHandles.WaitStatus

/-!
System calls and the answers they have. The operations of the library talk to the system in these
terms only, so that any system can stand behind them: one that keeps files and processes, or one
that answers as a test or a proof dictates.
-/

namespace OwnedHandles

abbrev Fd := Nat

abbrev Address := Nat

inductive FileKind
  | regular | directory | fifo | symlink | device
  deriving DecidableEq, Repr

structure LaunchPlan where
  arguments : ArgumentArray
  /-- Without one, the child gets the environment of its parent. -/
  environment : Option ArgumentArray
  commandLine : Bytes
  deriving DecidableEq, Repr

inductive ChildStdio
  | inherit
  | redirect (stdin stdout stderr : Fd)
  deriving DecidableEq, Repr

structure ChildTask where
  plan : LaunchPlan
  stdio : ChildStdio
  detached : Bool
  /-- The signal mask of the parent before the launch. -/
  mask : SignalMask
  deriving DecidableEq, Repr

inductive Call
  | probe (path : Bytes)
  | openFile (path : Bytes) (flags : OpenFlags) (mode : Mode)
  | changeMode (fd : Fd) (mode : Mode)
  | makeFifo (path : Bytes) (mode : Mode)
  | unlink (path : Bytes)
  | read (fd : Fd) (count : Nat)
  | write (fd : Fd) (data : Bytes)
  | close (fd : Fd)
  | closesOnExec (fd : Fd)
  | setCloseOnExec (fd : Fd) (on : Bool)
  | duplicate (fd target : Fd)
  | makePipe
  | mapMemory (size : Nat) (readable writable : Bool) (fd : Fd) (offset : Nat)
  | unmapMemory (address : Address) (size : Nat)
  | setMask (mask : SignalMask)
  | setDisposition (signal : Nat) (next : Disposition)
  | fork (task : ChildTask)
  | wait (pid : Pid)
  | kill (pid : Pid) (signal : Nat)
  | exec (arguments : ArgumentArray) (environment : Option ArgumentArray)
  | exit (status : Nat)
  | pause (milliseconds : Nat)
  deriving DecidableEq, Repr

/-- What a call gives back. An image that was replaced or has exited gives nothing back. -/
def Call.Answer : Call → Type
  | probe _ => Option FileKind
  | openFile .. => Except Errno Fd
  | changeMode .. => Except Errno Unit
  | makeFifo .. => Except Errno Unit
  | unlink _ => Except Errno Unit
  | read .. => Except Errno Bytes
  | write .. => Except Errno Nat
  | close _ => Except Errno Unit
  | closesOnExec _ => Except Errno Bool
  | setCloseOnExec .. => Except Errno Unit
  | duplicate .. => Except Errno Unit
  | makePipe => Except Errno (Fd × Fd)
  | mapMemory .. => Except Errno Address
  | unmapMemory .. => Except Errno Unit
  | setMask _ => Except Errno SignalMask
  | setDisposition .. => Except Errno Unit
  | fork _ => Except Errno Pid
  | wait _ => Except Errno WaitStatus
  | kill .. => Except Errno Unit
  | exec .. => Errno
  | exit _ => Empty
  | pause _ => Unit

end OwnedHandles
