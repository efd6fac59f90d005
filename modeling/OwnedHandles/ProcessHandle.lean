import OwnedHandles.Program

namespace OwnedHandles

/-- What a wait makes of a status word. What neither ended nor stopped has to go on. -/
def WaitStatus.ofWord (pid : Pid) (w : BitVec 32) : Program (Except Errno WaitStatus) :=
  if isStray w then .abort "assertion failed: continued(status)"
  else return match decode? pid w with
    | some status => .ok status
    | none => .error .EINVAL

structure ProcessHandle where
  pid : Pid
  name : Option String := none
  deriving DecidableEq, Repr

namespace ProcessHandle

def same (p q : ProcessHandle) : Bool := p.pid = q.pid

@[simp] theorem same_iff_pid {p q : ProcessHandle} : p.same q = true ↔ p.pid = q.pid := by
  simp [same]

def hashWith (h : Pid → UInt64) (p : ProcessHandle) : UInt64 := h p.pid

def text (p : ProcessHandle) : String :=
  let suffix := "pid: " ++ toString p.pid
  match p.name with
  | some n => if n = "" then suffix else n ++ " " ++ suffix
  | none => suffix

def addNew (seen : List ProcessHandle) (p : ProcessHandle) : List ProcessHandle :=
  if seen.any p.same then seen else p :: seen

def distinct (ps : List ProcessHandle) : List ProcessHandle := (ps.foldl addNew []).reverse

def context (p : ProcessHandle) : String := "on process " ++ p.text

def ended (p : ProcessHandle) : Except Failure Int → Event
  | .ok code =>
    { level := .info, source := .handle, message := "process exited"
      fields := [("pid", .number p.pid), ("code", .number code)] }
  | .error f =>
    { level := .info, source := .handle, message := "process ended abnormally"
      fields := [("pid", .number p.pid), ("error", .text f.message)] }

/-- Waits for the process to change its state, and says what the change means. That a process, here
`self`, does not wait for itself is an assertion of the debug build. -/
def join (self : Pid) (p : ProcessHandle) (strict : Bool) : Action Int := do
  if p.pid = self then Action.abort "a process cannot wait on itself"
  match ← Action.ask (.wait p.pid) with
  | .error e => throw (.callFailed "waitpid" p.context e)
  | .ok status =>
    let result := status.outcome strict
    Action.log (p.ended result)
    MonadExcept.ofExcept result

def signal (p : ProcessHandle) (s : Signal) : Action Unit := do
  Action.orFail (.callFailed "kill" p.context) (← Action.ask (.kill p.pid s.number))
  Action.log { level := .debug, source := .handle, message := "signal sent"
               fields := [("pid", .number p.pid), ("signal", .text s.name)] }

/-- Probes with the null signal. Every failure counts as absence. -/
def isThere (p : ProcessHandle) : Program Bool := return (← Program.ask (.kill p.pid 0)).isOk

def terminate (p : ProcessHandle) : Action Unit := do
  if ← ExceptT.lift p.isThere then p.signal .SIGTERM

end ProcessHandle

end OwnedHandles
