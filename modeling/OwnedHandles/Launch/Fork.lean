import OwnedHandles.Launch.Plan
import OwnedHandles.ProcessHandle

namespace OwnedHandles

structure BlockedSignals where
  previous : SignalMask

namespace BlockedSignals

def blockAll : Action BlockedSignals := do
  return ⟨← Action.orFail (.callFailed "pthread_sigmask" "while blocking signals")
    (← Action.ask (.setMask SignalMask.full))⟩

def restore (b : BlockedSignals) : Action Unit := do
  let _ ← Action.orFail (.callFailed "pthread_sigmask" "while restoring signal mask")
    (← Action.ask (.setMask b.previous))

/-- Puts the mask back once the child is there, when a failure is no reason to give it up. -/
def restoreLogged (b : BlockedSignals) : Program Unit := do
  match ← b.restore.attempt with
  | .ok () => return ()
  | .error f =>
    Program.log { level := .warn, source := .launch, message := "parent signal mask not restored"
                  fields := [("error", .text f.message)] }

def drop (b : BlockedSignals) : Program Unit := do
  if let .error e := ← Program.ask (.setMask b.previous) then
    Program.log { level := .warn, source := .signals, message := "failed to restore signal mask"
                  fields := [("errno", .text e.text)] }

end BlockedSignals

namespace LaunchPlan

/-- Lets the system discard the exit statuses of children, from now on. -/
def ignoreChildTermination : Action Unit := do
  Action.orFail (.callFailed "signal" "while ignoring SIGCHLD")
    (← Action.ask (.setDisposition Signal.SIGCHLD.number .ignored))

def launched (p : LaunchPlan) (pid : Pid) (detached : Bool) : Event :=
  { level := .info, source := .launch, message := "process launched"
    fields := [("pid", .number pid), ("command", .text p.commandText),
      ("detached", .truth detached)] }

def forkBlocked (p : LaunchPlan) (blocked : BlockedSignals) (stdio : ChildStdio)
    (detached : Bool) : Action ProcessHandle := do
  match ← Action.ask (.fork { plan := p, stdio, detached, mask := blocked.previous }) with
  | .error e =>
    ExceptT.lift blocked.drop
    throw (.callFailed "fork" ("while launching \"" ++ p.commandText ++ "\"") e)
  | .ok pid =>
    ExceptT.lift blocked.restoreLogged
    Action.log (p.launched pid detached)
    return { pid, name := some p.commandText }

def fork (p : LaunchPlan) (stdio : ChildStdio) (detached : Bool) : Action ProcessHandle := do
  let blocked ← BlockedSignals.blockAll
  if detached then ignoreChildTermination.onLeave blocked.drop
  p.forkBlocked blocked stdio detached

end LaunchPlan

end OwnedHandles
