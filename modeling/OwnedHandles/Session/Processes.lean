import OwnedHandles.Session.Basic

namespace OwnedHandles.Session

open Kernel

namespace Launch

def executable (l : Launch) : Executable := ⟨⟨l.program⟩⟩

def environment (l : Launch) : Option Environment := l.env.map Environment.ofList

end Launch

namespace ProcessStep

def find (name : HandleName) : Work ProcessHandle := do
  match (← Work.session).processes.lookup name with
  | some p => return p
  | none => Work.refuse ("no process " ++ name)

def keep (name : HandleName) (p : ProcessHandle) : Work Unit :=
  Work.update fun s => { s with processes := put name p s.processes }

def launched (name : HandleName) (a : OwnedHandles.Action ProcessHandle) : Work Report := do
  let p ← Work.perform a
  keep name p
  return .record [("name", .optional .text p.name), ("shown", .text p.text)]

def stateReport (s : Session) (p : ProcessHandle) : Report :=
  let current := p.pid = s.self
  .record [("name", .optional .text p.name), ("current", .truth current),
    ("shown", if current then .nothing else .text p.text)]

def run (name : HandleName) : ProcessStep → Work Report
  | start l => launched name (l.executable.start l.params l.environment)
  | startAndForget program params =>
    launched name (Executable.startAndForget ⟨⟨program⟩⟩ params)
  | redirect l input output error perm =>
    launched name
      (l.executable.redirect l.params l.environment ⟨input⟩ ⟨output⟩ ⟨error⟩ perm)
  | ofPid pid text => do
    keep name { pid, name := text }
    return .nothing
  | current => do
    keep name { pid := (← Work.session).self }
    return .nothing
  | join strict => do
    let p ← find name
    return .number (← Work.perform (ProcessHandle.join (← Work.session).self p strict))
  | isThere => return .truth (← Work.run (← find name).isThere)
  | terminate => do
    Work.perform (← find name).terminate
    return .nothing
  | signal s => do
    Work.perform ((← find name).signal s)
    return .nothing
  | state => do return stateReport (← Work.session) (← find name)
  | equal other => return .truth ((← find name).same (← find other))

end ProcessStep

namespace Replacement

structure Fresh where
  kernel : State
  pid : Pid
  output : InodeId
  error : InodeId

def openOn (k : State) (pid : Pid) (fd : Fd) (i : InodeId) (flags : OpenFlags) : State :=
  let (k, id) := k.addOpenFile { inode := i, flags }
  k.putHandle pid fd ⟨id, false⟩

def fresh (s : Session) : Fresh :=
  let (pid, k) := s.kernel.addChild s.self
  let (k, output) := k.addInode { content := .ofBytes [], mode := 0o600#12 }
  let (k, error) := k.addInode { content := .ofBytes [], mode := 0o600#12 }
  let writing := OpenFlags.writeOnly ||| .append
  let k := match Walk.find k pid true (Bytes.ofString "/dev/null") with
    | .ok i => openOn k pid 0 i 0#32
    | .error _ => k
  let k := openOn (openOn k pid 1 output writing) pid 2 error writing
  { kernel := k, pid, output, error }

def content (k : State) (i : InodeId) : Report :=
  match k.content i with
  | .regular data _ => .bytes data.data.toList
  | _ => .bytes []

def exitStatus (pid : Pid) (word : BitVec 32) : Report :=
  match WaitStatus.decode? pid word with
  | some (.exited _ code) => .number code
  | _ => .nothing

/-- Becomes a program in a process of its own. What is logged there is lost with it. -/
def run (l : Launch) : Work Report := do
  let s ← Work.session
  let f := fresh s
  let program := (l.executable.exec l.params l.environment).run
  let done := f.kernel.run (State.answerAlone f.pid) [] program
  let k := done.state.wakeUp f.pid
  Work.update fun s => { s with kernel := k.removeProcess f.pid }
  match done.outcome, (k.process? f.pid).map Process.life with
  | .done (.error e), _ => throw (.failure e)
  | .gone, some (.ended word) =>
    return .record [("status", exitStatus f.pid word), ("stdout", content k f.output),
      ("stderr", content k f.error)]
  | _, _ => throw .stuck

end Replacement

end OwnedHandles.Session
