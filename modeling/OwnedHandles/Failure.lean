import OwnedHandles.Errno
import OwnedHandles.Text.Quoted

namespace OwnedHandles

inductive Failure
  | openFailed (name : String) (errno : Errno)
  | readFailed (name : String) (errno : Errno)
  | writeFailed (name : String) (errno : Errno)
  | closeFailed (name : String) (errno : Errno)
  | removeFailed (name : String) (errno : Errno)
  | callFailed (call context : String) (errno : Errno)
  | executionFailed (command : String) (status : Int) (stderr : String)
  | nonZeroExit (status : Int)
  | signaled (signal : Int)
  | allocationFailed (bytes : Nat)
  | invalidString (value : String)
  | invalidMessage (length max : Nat)
  deriving DecidableEq, Repr

namespace Failure

def fileMessage (what name : String) (e : Errno) : String :=
  "Can not " ++ what ++ " file \"" ++ name ++ "\" (" ++ e.text ++ ")"

def message : Failure → String
  | openFailed n e => fileMessage "open" n e
  | readFailed n e => fileMessage "read from" n e
  | writeFailed n e => fileMessage "write to" n e
  | closeFailed n e => fileMessage "close" n e
  | removeFailed n e => fileMessage "remove" n e
  | callFailed call context e =>
    "System call \"" ++ call ++ "\" fails " ++ context ++ " (" ++ e.text ++ ")"
  | executionFailed command status _ =>
    "Execution of the \"" ++ command ++ "\" command fails with " ++ toString status ++ " status"
  | nonZeroExit status => "Process terminated with the " ++ toString status ++ " status"
  | signaled signal => "Process has been terminated by the " ++ toString signal ++ " signal"
  | allocationFailed bytes =>
    "Request for allocating " ++ toString bytes ++ " bytes of memory fails"
  | invalidString value => "Invalid string for the OS interface: " ++ Text.quote value
  | invalidMessage length max =>
    "Message length " ++ toString length ++ " out of range 1.." ++ toString max

def errno? : Failure → Option Errno
  | openFailed _ e | readFailed _ e | writeFailed _ e | closeFailed _ e | removeFailed _ e
  | callFailed _ _ e => some e
  | _ => none

def exitStatus? : Failure → Option Int
  | executionFailed _ status _ | nonZeroExit status => some status
  | _ => none

def code : Failure → String
  | openFailed .. => "system::open_failed"
  | readFailed .. => "system::read_failed"
  | writeFailed .. => "system::write_failed"
  | closeFailed .. => "system::close_failed"
  | removeFailed .. => "system::remove_failed"
  | callFailed .. => "system::os_call_failed"
  | executionFailed .. => "system::execution_failed"
  | nonZeroExit .. => "system::non_zero_exit"
  | signaled .. => "system::process_signaled"
  | allocationFailed .. => "system::allocation_failed"
  | invalidString .. => "system::invalid_string"
  | invalidMessage .. => "system::invalid_message"

def help? : Failure → Option String
  | openFailed .. => some "Check that the path exists and that the access mode is permitted."
  | closeFailed .. =>
    some "The handle is released by the kernel even when close reports an error."
  | executionFailed .. =>
    some "The captured standard error of the command is attached to this error."
  | signaled .. =>
    some "A process stopped by a signal is reported the same way as one killed by it."
  | invalidString .. =>
    some ("Arguments and environment entries must not contain NUL bytes; " ++
      "keys must not contain '='.")
  | _ => none

end Failure

end OwnedHandles
