import OwnedHandles.Kernel.Files
import OwnedHandles.Kernel.Processes

namespace OwnedHandles.Kernel

inductive Ending
  | exited (status : Nat)
  | killed
  | blocked
  deriving DecidableEq, Repr

abbrev Launcher := Pid → Bytes → List Bytes → List Bytes → StateM State (Except Errno Ending)

abbrev Image := ReaderT Pid (ExceptT Ending (StateM State))

namespace State

def restoreHandles (s : State) (pid : Pid) (saved : List (Fd × Handle)) : State :=
  let s := s.closeHandles pid fun h =>
    !(saved.any fun k => k.1 = h.1 && k.2.openFile = h.2.openFile)
  s.modifyProcess pid fun p => { p with handles := saved }

def hasGone (s : State) (pid : Pid) : Bool :=
  match s.process? pid with
  | some p => hasEnded p
  | none => true

end State

namespace Image

def sys {α : Type} (c : Pid → Sys α) : Image (Except Errno α) := do
  let (r, s) := (c (← read)).run (← getThe State)
  set s
  match r with
  | .ok a => return .ok a
  | .error (.errno e) => return .error e
  | .error .blocked => throw .blocked

def writeAll (fd : Fd) : Nat → Bytes → Image Bool
  | _, [] => return true
  | 0, _ => return false
  | rounds + 1, data => do
    match ← sys fun pid => Sys.write pid fd data with
    | .ok n => writeAll fd rounds (data.drop n)
    | .error _ => return false

def put (fd : Fd) (data : Bytes) : Image Bool := writeAll fd data.length data

def warn (text : String) : Image Unit := do
  let _ ← put 2 (Bytes.ofString (text ++ "\n"))

def readChunk : Nat := 65536

def readAll (fd : Fd) : Nat → List Bytes → Image (Except Errno Bytes)
  | 0, chunks => return .ok chunks.reverse.flatten
  | rounds + 1, chunks => do
    match ← sys fun pid => Sys.read pid fd readChunk with
    | .ok [] => return .ok chunks.reverse.flatten
    | .ok chunk => readAll fd rounds (chunk :: chunks)
    | .error e => return .error e

/-- More rounds than any loop here is going to take. -/
def rounds : Nat := 0x100000000

def exit {α : Type} (status : Nat) : Image α := throw (.exited status)

end Image

end OwnedHandles.Kernel
