import OwnedHandles.Descriptor

namespace OwnedHandles

namespace LaunchPlan

/-- Marshals a launch. Strings that the system can not take are refused here, before any effect. -/
def marshal (program : Bytes) (params : List Bytes) (env : Option Environment) :
    Allocating LaunchPlan := do
  let arguments ← ArgumentArray.ofArguments program params
  let environment ← (env.mapM ArgumentArray.ofEnvironment).releasing arguments.blocks
  return { arguments, environment := environment.map ArgumentArray.Stored.seen
           commandLine := OwnedHandles.commandLine program params }

def make (program : Bytes) (params : List Bytes) (env : Option Environment) :
    Except Failure LaunchPlan :=
  ((marshal program params env).run.run {}).1

def commandText (p : LaunchPlan) : String := Text.decodeLossy p.commandLine

def execCall (p : LaunchPlan) : String := if p.environment.isSome then "execve" else "execv"

def failureNote (p : LaunchPlan) : Bytes :=
  Bytes.ofString "Can not execute \"" ++ p.commandLine ++ Bytes.ofString "\": "

def exec (p : LaunchPlan) : Program Errno := Program.ask (.exec p.arguments p.environment)

def replaceCurrent (p : LaunchPlan) : Program Failure := do
  return .callFailed p.execCall ("while executing \"" ++ p.commandText ++ "\"") (← p.exec)

end LaunchPlan

namespace ChildStdio

def descriptorFor (d : Descriptor) : Except Failure Fd :=
  match d.fd with
  | some fd => .ok fd
  | none => .error (.callFailed "dup2" ("on closed file " ++ d.name) .EBADF)

def ofDescriptors (stdin stdout stderr : Descriptor) : Except Failure ChildStdio := do
  return .redirect (← descriptorFor stdin) (← descriptorFor stdout) (← descriptorFor stderr)

/-- Puts each descriptor on its number. One that is there already only stops being closed on
exec. -/
def install : List (Fd × Fd) → Program (Except (String × Errno) Unit)
  | [] => return .ok ()
  | (fd, target) :: rest => do
    if fd = target then
      match ← Program.ask (.setCloseOnExec fd false) with
      | .error e => return .error ("fcntl", e)
      | .ok () => install rest
    else
      match ← Program.ask (.duplicate fd target) with
      | .error e => return .error ("dup2", e)
      | .ok () => install rest

def closeAbove (limit : Fd) : List Fd → Program Unit
  | [] => return ()
  | fd :: rest => do
    if limit < fd then
      let _ ← Program.ask (.close fd)
    closeAbove limit rest

def wire : ChildStdio → Program (Except (String × Errno) Unit)
  | inherit => return .ok ()
  | redirect stdin stdout stderr => do
    match ← install [(stdin, 0), (stdout, 1), (stderr, 2)] with
    | .error e => return .error e
    | .ok () =>
      closeAbove 2 [stdin, stdout, stderr]
      return .ok ()

end ChildStdio

namespace ChildTask

def writeParts : List Bytes → Program Unit
  | [] => return ()
  | part :: rest => do
    let _ ← Program.ask (.write 2 part)
    writeParts rest

def report (t : ChildTask) (call : String) (e : Errno) : Program Unit :=
  writeParts [t.plan.failureNote, Bytes.ofString call, Bytes.ofString ": ",
    Bytes.ofString e.wording, Bytes.ofString "\n"]

def resetDispositions (t : ChildTask) : Program Unit := do
  let _ ← Program.ask (.setDisposition Signal.SIGTERM.number .byDefault)
  let _ ← Program.ask (.setDisposition Signal.SIGINT.number .byDefault)
  if t.detached then
    let _ ← Program.ask (.setDisposition Signal.SIGCHLD.number .byDefault)

def main (t : ChildTask) : Program Empty := do
  t.resetDispositions
  let _ ← Program.ask (.setMask t.mask)
  match ← t.stdio.wire with
  | .error (call, e) => t.report call e
  | .ok () => t.report t.plan.execCall (← t.plan.exec)
  Program.ask (.exit Limits.execFailureStatus)

end ChildTask

end OwnedHandles
