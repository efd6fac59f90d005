import OwnedHandles.Session.Fifos
import OwnedHandles.Session.Fixtures
import OwnedHandles.Session.Maps
import OwnedHandles.Session.Processes
import OwnedHandles.Session.Surroundings

namespace OwnedHandles.Session

open Kernel

namespace Task

def run : Task → Work Report
  | fixture f => f.run
  | file f => f.run
  | descriptor name d => d.run name
  | fifo name f => f.run name
  | map name m => m.run name
  | process name p => p.run name
  | system command => do
    let self := (← Work.session).self
    return .text (← Work.perform (Executable.system self command Work.rounds))
  | capture l => do
    let self := (← Work.session).self
    return .text
      (← Work.perform (l.executable.capture self l.params l.environment Work.rounds))
  | exec l => Replacement.run l

end Task

def freeNumber (taken : List Fd) : Nat → Nat → Fd → Fd
  | 0, _, fd => fd
  | fuel + 1, n, fd =>
    if taken.contains fd then freeNumber taken fuel n (fd + 1)
    else match n with
      | 0 => fd
      | n + 1 => freeNumber taken fuel n (fd + 1)

def limitFor (s : Session) (more : Nat) : Nat :=
  let taken := (s.kernel.handles s.self).map Prod.fst
  freeNumber taken (taken.length + more + 1) more 0

def closeNumbers (k : State) (pid : Pid) (fds : List Fd) : State × List (Fd × Handle) :=
  let saved := (k.handles pid).filter fun h => fds.contains h.1
  (k.modifyProcess pid fun p =>
    { p with handles := p.handles.filter fun h => !fds.contains h.1 }, saved)

def reopen (k : State) (pid : Pid) (saved : List (Fd × Handle)) : State :=
  saved.foldl (fun k h => k.putHandle pid h.1 h.2) k

def step (s : Session) (t : Step) : Session × Answered :=
  let (k, saved) := closeNumbers s.kernel s.self t.closedHandles
  let limit := k.handleLimit
  let s := { s with kernel := k }
  let s := match t.newHandles with
    | some n => { s with kernel := { k with handleLimit := limitFor s n } }
    | none => s
  let (result, (s, events)) := (ExceptT.run t.task.run).run (s, [])
  let k := { s.kernel with handleLimit := limit }
  let s := { s with kernel := (reopen k s.self saved).startAll }
  (s, { result, events })

def steps (s : Session) : List Step → Session × List Answered
  | [] => (s, [])
  | t :: ts =>
    let (s, a) := s.step t
    if a.isEnd then (s, [a])
    else
      let (s, as) := steps s ts
      (s, a :: as)

def isChild (s : Session) (n : Nat) : Bool :=
  s.self < (n : Int) && (n : Int) < s.kernel.nextPid

def isStuck (as : List Answered) : Bool :=
  as.any fun a => match a.result with
    | .error .stuck => true
    | _ => false

def runIn (s : Session) (ts : List Step) : Session × List Answered :=
  let (s, answers) := s.steps ts
  (s, answers.map (Masking.answered s.isChild))

def run (entries : List Bytes) (ts : List Step) : List Answered :=
  (runIn (Surroundings.begin entries) ts).2

/-- Runs steps behind those of an earlier session. If they get stuck on what that has left
behind, they run once more in fresh surroundings. -/
def runAfter (s : Session) (ts : List Step) : Session × List Answered :=
  let (next, answers) := runIn (Surroundings.again s []) ts
  if isStuck answers then runIn (Surroundings.begin []) ts else (next, answers)

end OwnedHandles.Session
