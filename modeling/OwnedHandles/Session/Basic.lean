import OwnedHandles.Executable
import OwnedHandles.FifoConnection
import OwnedHandles.Kernel.Answers
import OwnedHandles.MappedFile
import OwnedHandles.Session.Report
import OwnedHandles.Session.Step

namespace OwnedHandles

structure Session.FifoEntry where
  connection : FifoConnection
  lastHandle : Option Fd := none

structure Session where
  kernel : Kernel.State
  self : Pid
  /-- The directory above the one that the session works in, and that one. -/
  top : Kernel.InodeId
  directory : Kernel.InodeId
  outputFile : Kernel.InodeId
  errorFile : Kernel.InodeId
  descriptors : List (Session.HandleName × Descriptor) := []
  fifos : List (Session.HandleName × Session.FifoEntry) := []
  maps : List (Session.HandleName × MappedFile) := []
  processes : List (Session.HandleName × ProcessHandle) := []

namespace Session

abbrev Work := ExceptT Trouble (StateM (Session × List Event))

def put {α : Type} (name : HandleName) (a : α) (entries : List (HandleName × α)) :
    List (HandleName × α) :=
  (name, a) :: entries.filter fun e => e.1 ≠ name

def without {α : Type} (name : HandleName) (entries : List (HandleName × α)) :
    List (HandleName × α) :=
  entries.filter fun e => e.1 ≠ name

namespace Work

def session : Work Session := return (← get).1

def update (f : Session → Session) : Work Unit := modify fun p => (f p.1, p.2)

def run {α : Type} (p : Program α) : Work α := do
  let (s, events) ← get
  let f := s.kernel.run (Kernel.State.answer s.self) [] p
  set ({ s with kernel := f.state }, events ++ f.events)
  match f.outcome with
  | .done a => return a
  | .aborted m => throw (.broken m)
  | .unfinished | .blocked => throw .stuck
  | .gone => throw .ended

def ofResult {α : Type} : Except Failure α → Work α
  | .ok a => return a
  | .error f => throw (.failure f)

def perform {α : Type} (a : Action α) : Work α := do ofResult (← run a.run)

def sys {α : Type} (c : Pid → Kernel.Sys α) : Work (Except Errno α) := do
  let (s, events) ← get
  match (c s.self).run s.kernel with
  | (.ok a, kernel) =>
    set ({ s with kernel }, events)
    return .ok a
  | (.error (.errno e), kernel) =>
    set ({ s with kernel }, events)
    return .error e
  | (.error .blocked, _) => throw .stuck

def refuse {α : Type} (message : String) : Work α := throw (.refused message)

def rounds : Nat := Kernel.Image.rounds

end Work

end Session

end OwnedHandles
