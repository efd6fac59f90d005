import OwnedHandles.Launch.Fork
import OwnedHandles.Launch.Pipes

namespace OwnedHandles

structure Executable where
  file : File
  deriving DecidableEq, Repr

namespace Executable

def name (e : Executable) : String := e.file.name

def same (e f : Executable) : Bool := e.file.same f.file

def program (e : Executable) : Bytes := Bytes.ofString e.name

def commandLine (e : Executable) (params : List Bytes) : Bytes :=
  OwnedHandles.commandLine e.program params

def plan (e : Executable) (params : List Bytes) (env : Option Environment) :
    Action LaunchPlan :=
  MonadExcept.ofExcept (LaunchPlan.make e.program params env)

def exec (e : Executable) (params : List Bytes) (env : Option Environment) : Action Unit := do
  let plan ← e.plan params env
  throw (← ExceptT.lift plan.replaceCurrent)

def start (e : Executable) (params : List Bytes) (env : Option Environment) :
    Action ProcessHandle := do
  (← e.plan params env).fork .inherit false

def startAndForget (e : Executable) (params : List Bytes) : Action ProcessHandle := do
  (← e.plan params none).fork .inherit true

def drained (p : ProcessHandle) (status : Int) (out err : Bytes) : Event :=
  { level := .debug, source := .executable, message := "captured output drained"
    fields := [("pid", .number p.pid), ("status", .number status),
      ("stdout_bytes", .number out.length), ("stderr_bytes", .number err.length)] }

def startOnPipes (plan : LaunchPlan) : Action (ProcessHandle × StreamEnds) := do
  let (child, parent) ← StreamEnds.openPipes
  let leave := parent.drop.bind fun _ => child.drop
  let stdio ← (MonadExcept.ofExcept child.stdio : Action ChildStdio).onLeave leave
  let process ← (plan.fork stdio false).onLeave leave
  ExceptT.lift child.drop
  return (process, parent)

def conclude (plan : LaunchPlan) (process : ProcessHandle) (ending : Except Failure Int)
    (out err : Bytes) : Action String := do
  let status ← MonadExcept.ofExcept ending
  Action.log (drained process status out err)
  if status = 0 then return Text.decodeLossy out
  else throw (.executionFailed plan.commandText status (Text.decodeLossy err))

/-- Runs to completion and gives the captured standard output. The child sees the end of the
stream on its standard input. It is waited for before its output is read. -/
def capture (e : Executable) (self : Pid) (params : List Bytes) (env : Option Environment)
    (rounds : Nat) : Action String := do
  let plan ← e.plan params env
  let (process, parent) ← startOnPipes plan
  let stdin ← ExceptT.lift parent.stdin.closeSafe
  let parent := { parent with stdin }
  let ending ← ExceptT.lift ((process.join self false).onAbort parent.drop).attempt
  let (out, err) ← parent.drain rounds
  conclude plan process ending out err

def shell : Executable := ⟨⟨Bytes.ofString Limits.shell⟩⟩

def system (self : Pid) (command : Bytes) (rounds : Nat) : Action String :=
  shell.capture self [Bytes.ofString Limits.shellCommandParameter, command] none rounds

def reading : OpenFlags := OpenFlags.forAccess true false ||| OpenFlags.closeOnExec

def writing : OpenFlags := OpenFlags.forAccess false true ||| OpenFlags.closeOnExec

def redirected (p : ProcessHandle) (input output error : File) : Event :=
  { level := .info, source := .executable, message := "process streams redirected"
    fields := [("pid", .number p.pid), ("input", .text input.name),
      ("output", .text output.name), ("error", .text error.name)] }

/-- Starts a child with its standard streams on files. Every file is open before the child
starts. -/
def redirect (e : Executable) (params : List Bytes) (env : Option Environment)
    (input output error : File) (perm : Mode) : Action ProcessHandle := do
  let plan ← e.plan params env
  let stdin ← Descriptor.openFile input reading perm
  let stdout ← (Descriptor.openFile output writing perm).onLeave (Descriptor.dropAll [stdin])
  let stderr ← (Descriptor.openFile error writing perm).onLeave
    (Descriptor.dropAll [stdout, stdin])
  let leave := Descriptor.dropAll [stderr, stdout, stdin]
  let stdio ← (MonadExcept.ofExcept (ChildStdio.ofDescriptors stdin stdout stderr) :
    Action ChildStdio).onLeave leave
  let process ← (plan.fork stdio false).onLeave leave
  ExceptT.lift (Descriptor.dropAll [stdin, stdout, stderr])
  Action.log (redirected process input output error)
  return process

end Executable

end OwnedHandles
