import OwnedHandles.Kernel.State

/-!
Calls on processes: forking, waiting, signals and exits. A process that sleeps or is stopped has
already done what it is going to do, and keeps back only its end.
-/

namespace OwnedHandles.Kernel

namespace State

def removeProcess (s : State) (pid : Pid) : State :=
  { s with processes := s.processes.filter fun p => p.pid ≠ pid }

def ignores (p : Process) (signal : Nat) : Bool := p.dispositions signal = .ignored

def parentIgnoresEnd (s : State) (p : Process) : Bool :=
  match s.process? p.parent with
  | some parent => ignores parent Signal.SIGCHLD.number
  | none => true

/-- Ends a process. Its word is kept for the parent, unless the parent does not care. -/
def bury (s : State) (pid : Pid) (word : BitVec 32) : State :=
  let s := s.closeHandles pid fun _ => true
  match s.process? pid with
  | none => s
  | some p =>
    if s.parentIgnoresEnd p then s.removeProcess pid
    else s.modifyProcess pid fun p => { p with life := .ended word }

def finish (s : State) (pid : Pid) (word : BitVec 32) : State :=
  match (s.process? pid).map Process.delay with
  | none | some .none => s.bury pid word
  | some .sleep => s.modifyProcess pid fun p => { p with life := .asleep (some word) }
  | some .stop => s.modifyProcess pid fun p => { p with life := .stopped (some word) }

def stall (s : State) (pid : Pid) : State :=
  s.modifyProcess pid fun p => { p with life := .asleep none }

def cannotBeHeld (signal : Nat) : Bool :=
  signal = Signal.SIGKILL.number || signal = Signal.SIGSTOP.number

/-- What a signal does to a process that is not stopped; `none` if nothing. -/
def action? (p : Process) (signal : Nat) : Option DefaultAction :=
  if !cannotBeHeld signal && (p.mask.holds signal || p.dispositions signal ≠ .byDefault) then none
  else some (.ofNumber signal)

def addChild (s : State) (parent : Pid) : Pid × State :=
  let pid := s.nextPid
  let p := ((s.process? parent).getD { pid := parent, parent := 0 })
  let p := { p with pid, parent, pending := [], delay := .none, life := .running }
  (pid, { s with processes := s.processes ++ [p], nextPid := pid + 1 })

def delaySleep (s : State) (pid : Pid) : State :=
  s.modifyProcess pid fun p => if p.delay = .none then { p with delay := .sleep } else p

def disturb (s : State) (pid : Pid) (wakesTo : Option (BitVec 32)) (signal : Nat) : State :=
  match (s.process? pid).bind fun p => action? p signal with
  | some .terminate => s.bury pid (WaitStatus.signalWord signal)
  | some .stop => s.modifyProcess pid fun p => { p with life := .stopped wakesTo }
  | _ => s

/-- Delivers the signals that came while the process was stopped, as long as it sleeps. -/
def disturbAll (s : State) (pid : Pid) (wakesTo : Option (BitVec 32)) : List Nat → State
  | [] => s
  | signal :: rest =>
    match (s.process? pid).map Process.life with
    | some (.asleep _) => (s.disturb pid wakesTo signal).disturbAll pid wakesTo rest
    | _ => s

def interrupt (s : State) (p : Process) (signal : Nat) : State :=
  match action? p signal with
  | some .terminate => s.bury p.pid (WaitStatus.signalWord signal)
  | some .stop => s.modifyProcess p.pid fun p => { p with delay := .stop }
  | _ => s

def deliver (s : State) (pid : Pid) (signal : Nat) : State :=
  match s.process? pid with
  | none => s
  | some p =>
    match p.life with
    | .running => s.interrupt p signal
    | .asleep wakesTo => s.disturb pid wakesTo signal
    | .stopped wakesTo =>
      if signal = Signal.SIGKILL.number then s.bury pid (WaitStatus.signalWord signal)
      else if signal = Signal.SIGCONT.number then
        let s := s.modifyProcess pid fun p => { p with life := .asleep wakesTo, pending := [] }
        s.disturbAll pid wakesTo p.pending
      else s.modifyProcess pid fun p => { p with pending := p.pending ++ [signal] }
    | .ready _ | .ended _ => s

def wakeUp (s : State) (pid : Pid) : State :=
  match (s.process? pid).map Process.life with
  | some (.asleep (some word)) => s.bury pid word
  | _ => s

def isAsleep (p : Process) : Bool :=
  match p.life with
  | .asleep (some _) => true
  | _ => false

def wakeAll (s : State) : State :=
  ((s.processes.filter isAsleep).map Process.pid).foldl wakeUp s

def awaited (s : State) (self pid : Pid) : List Process :=
  s.processes.filter fun p =>
    p.parent = self && (p.pid = pid || pid = 0 || pid = -1)

def hasEnded (p : Process) : Bool :=
  match p.life with
  | .ended _ => true
  | _ => false

end State

namespace Sys

def signalLimit : Nat := 64

def leastPid : Pid := -2147483648

def process (pid : Pid) : Sys Process := do
  match (← getThe State).process? pid with
  | some p => return p
  | none => fail .ESRCH

def setMask (pid : Pid) (mask : SignalMask) : Sys SignalMask := do
  let p ← process pid
  let mask := (mask.without Signal.SIGKILL.number).without Signal.SIGSTOP.number
  update fun s => s.modifyProcess pid fun p => { p with mask }
  return p.mask

def setDisposition (pid : Pid) (signal : Nat) (next : Disposition) : Sys Unit := do
  require (0 < signal && signal ≤ signalLimit && !State.cannotBeHeld signal) .EINVAL
  update fun s => s.modifyProcess pid fun p =>
    { p with dispositions := p.dispositions.set signal next }

def fork (pid : Pid) (task : ChildTask) : Sys Pid := do
  let _ ← process pid
  let (child, s) := (← getThe State).addChild pid
  set (s.modifyProcess child fun p => { p with life := .ready task })
  return child

def reap (p : Process) : Sys WaitStatus := do
  match p.life with
  | .ended word =>
    update fun s => s.removeProcess p.pid
    match WaitStatus.decode? p.pid word with
    | some status => return status
    | none => fail .EINVAL
  | _ => throw .blocked

def wait (self pid : Pid) : Sys WaitStatus := do
  require (pid ≠ leastPid) .ESRCH
  let children := (← getThe State).awaited self pid
  match children.find? State.hasEnded, children with
  | some p, _ => reap p
  | none, [] => fail .ECHILD
  | none, p :: _ =>
    update fun s => s.wakeUp p.pid
    match (← getThe State).process? p.pid with
    | some p => reap p
    | none => fail .ECHILD

def kill (target : Pid) (signal : Nat) : Sys Unit := do
  require (signal ≤ signalLimit) .EINVAL
  if target = 0 ∨ target = -1 then return ()
  let _ ← process target
  if signal ≠ 0 then update fun s => s.deliver target signal

end Sys

end OwnedHandles.Kernel
