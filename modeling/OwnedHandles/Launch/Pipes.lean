import OwnedHandles.Launch.Plan

namespace OwnedHandles

structure PipeEnds where
  read : Descriptor
  write : Descriptor
  deriving Repr

namespace PipeEnds

def openNamed (stream : String) : Action PipeEnds := do
  let (r, w) ← Action.orFail (.callFailed "pipe" ("while creating " ++ stream ++ " pipe"))
    (← Action.ask .makePipe)
  return { read := Descriptor.owning r (stream ++ " pipe (read end)")
           write := Descriptor.owning w (stream ++ " pipe (write end)") }

def drop (p : PipeEnds) : Program Unit := Descriptor.dropAll [p.read, p.write]

end PipeEnds

structure StreamEnds where
  stdin : Descriptor
  stdout : Descriptor
  stderr : Descriptor
  deriving Repr

namespace StreamEnds

def toList (s : StreamEnds) : List Descriptor := [s.stdin, s.stdout, s.stderr]

def drop (s : StreamEnds) : Program Unit := Descriptor.dropAll s.toList

def stdio (s : StreamEnds) : Except Failure ChildStdio :=
  ChildStdio.ofDescriptors s.stdin s.stdout s.stderr

def openPipes : Action (StreamEnds × StreamEnds) := do
  let stdin ← PipeEnds.openNamed "stdin"
  let stdout ← (PipeEnds.openNamed "stdout").onLeave stdin.drop
  let stderr ← (PipeEnds.openNamed "stderr").onLeave (stdout.drop.bind fun _ => stdin.drop)
  return ({ stdin := stdin.read, stdout := stdout.write, stderr := stderr.write },
          { stdin := stdin.write, stdout := stdout.read, stderr := stderr.read })

def closeCaptured : List Descriptor → Program Unit
  | [] => return ()
  | d :: ds => do
    let (result, _) ← d.close
    if let .error f := result then
      Program.log { level := .warn, source := .pipes, message := "failed to close capture pipe"
                    fields := [("error", .text f.message)] }
    closeCaptured ds

def drain (s : StreamEnds) (rounds : Nat) : Action (Bytes × Bytes) := do
  let stdin ← ExceptT.lift s.stdin.closeSafe
  let s := { s with stdin }
  let out ← (s.stdout.readToEnd rounds).onLeave s.drop
  let err ← (s.stderr.readToEnd rounds).onLeave s.drop
  ExceptT.lift (closeCaptured [s.stdout, s.stderr])
  return (out, err)

end StreamEnds

end OwnedHandles
