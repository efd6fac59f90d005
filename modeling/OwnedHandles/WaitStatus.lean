import OwnedHandles.Failure
import OwnedHandles.Signal

namespace OwnedHandles

abbrev Pid := Int

inductive WaitStatus
  | exited (pid : Pid) (code : Int)
  | signaled (pid : Pid) (signal : Signal) (core : Bool)
  | stopped (pid : Pid) (signal : Signal)
  | traceEvent (pid : Pid) (signal : Signal) (event : Int)
  | traceSyscall (pid : Pid)
  | continued (pid : Pid)
  | stillAlive
  deriving DecidableEq, Repr

namespace WaitStatus

def showPid (p : Pid) : String := "Pid(" ++ toString p ++ ")"

def text : WaitStatus → String
  | exited p c => "Exited(" ++ showPid p ++ ", " ++ toString c ++ ")"
  | signaled p s core => "Signaled(" ++ showPid p ++ ", " ++ s.name ++ ", " ++ toString core ++ ")"
  | stopped p s => "Stopped(" ++ showPid p ++ ", " ++ s.name ++ ")"
  | traceEvent p s e => "PtraceEvent(" ++ showPid p ++ ", " ++ s.name ++ ", " ++ toString e ++ ")"
  | traceSyscall p => "PtraceSyscall(" ++ showPid p ++ ")"
  | continued p => "Continued(" ++ showPid p ++ ")"
  | stillAlive => "StillAlive"

def traceSyscallStop : Nat := 0x85

def continuedWord : BitVec 32 := 0xffff#32

/-- Neither an end nor a stop, and no resumption either. No process gives such a word. -/
def isStray (w : BitVec 32) : Bool := w &&& 0xff#32 = 0xff#32 && w ≠ continuedWord

/-- Reads a status word. A word that names a signal beyond the classic ones means nothing. -/
def decode? (pid : Pid) (w : BitVec 32) : Option WaitStatus :=
  let low := (w &&& 0x7f#32).toNat
  let second := ((w >>> 8) &&& 0xff#32).toNat
  if low = 0 then some (exited pid second)
  else if low < 0x7f then (Signal.ofNumber? low).map fun s => signaled pid s (w.getLsbD 7)
  else if w &&& 0xff#32 = 0x7f#32 then
    if second = traceSyscallStop then some (traceSyscall pid)
    else
      let event := (w.sshiftRight 16).toInt
      (Signal.ofNumber? second).map fun s =>
        if event = 0 then stopped pid s else traceEvent pid s event
  else if isStray w then none
  else some (continued pid)

def exitWord (code : Nat) : BitVec 32 := (BitVec.ofNat 32 code &&& 0xff#32) <<< 8

def signalWord (number : Nat) : BitVec 32 := BitVec.ofNat 32 number &&& 0x7f#32

/-- The exit code of a process that ended by itself. A non-zero code is a failure where
`strict` asks for it, and so is any other way to end or to stop. -/
def outcome (strict : Bool) : WaitStatus → Except Failure Int
  | exited _ code => if strict ∧ code ≠ 0 then .error (.nonZeroExit code) else .ok code
  | signaled _ s _ | stopped _ s => .error (.signaled s.number)
  | other =>
    .error (.callFailed "waitpid" ("returned unexpected status " ++ other.text) .EINVAL)

end WaitStatus

end OwnedHandles
