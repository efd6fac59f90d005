import OwnedHandles.File
import OwnedHandles.Limits
import OwnedHandles.Program

/-!
Descriptors: one open handle each, with the name of what it refers to. A descriptor is closed at
most once. Closing it again does nothing, and one that is still open when its owner lets go of it
is closed with failures logged.
-/

namespace OwnedHandles

structure Descriptor where
  fd : Option Fd
  name : String
  deriving DecidableEq, Repr

namespace Descriptor

def isOpen (d : Descriptor) : Bool := d.fd.isSome

def isActive (d : Descriptor) : Bool := d.isOpen

def owning (fd : Fd) (name : String) : Descriptor := ⟨some fd, name⟩

def closed (d : Descriptor) : Descriptor := { d with fd := none }

@[simp] theorem isOpen_owning (fd : Fd) (name : String) : (owning fd name).isOpen = true := rfl

@[simp] theorem isOpen_closed (d : Descriptor) : d.closed.isOpen = false := rfl

def resourceType : String := "descriptor"

def notice (d : Descriptor) (fd : Fd) (message : String) : Event :=
  { level := .debug, source := .descriptor, message
    fields := [("fd", .number fd), ("name", .text d.name)] }

/-- Closes the handle. It counts as closed from then on, even if the system reports an error. -/
def close (d : Descriptor) : Program (Except Failure Unit × Descriptor) :=
  match d.fd with
  | none => return (.ok (), d)
  | some fd => do
    match ← Program.ask (.close fd) with
    | .ok () =>
      Program.log (d.notice fd "descriptor closed")
      return (.ok (), d.closed)
    | .error e => return (.error (.closeFailed d.name e), d.closed)

def release (d : Descriptor) : Program (Except Failure Unit × Descriptor) := d.close

def closeWarning (d : Descriptor) (f : Failure) : Event :=
  { level := .warn, source := .descriptor, message := "close failed"
    fields := [("resource", .text resourceType), ("name", .text d.name),
      ("error", .text f.message)] }

def closeSafe (d : Descriptor) : Program Descriptor := do
  let (result, d) ← d.close
  if let .error f := result then Program.log (d.closeWarning f)
  return d

theorem closeSafe_bind {α : Type} (d : Descriptor) (f : Descriptor → Program α) :
    d.closeSafe.bind f = d.closeSafe.bind fun _ => f d.closed := by
  obtain ⟨fd, name⟩ := d
  cases fd with
  | none => rfl
  | some fd =>
    simp only [closeSafe, close, Program.bind_eq, Program.ask_bind, Program.call_bind]
    congr 1
    funext a
    cases a <;> rfl

theorem lift_closeSafe_bind {α : Type} (d : Descriptor) (f : Descriptor → Action α) :
    (ExceptT.lift d.closeSafe : Action Descriptor) >>= f =
      (ExceptT.lift d.closeSafe : Action Descriptor) >>= fun _ => f d.closed := by
  apply ExceptT.ext
  simp only [Action.run_bind, Action.run_lift, Program.bind_assoc, Program.done_bind]
  exact d.closeSafe_bind fun d => (f d).run

def drop (d : Descriptor) : Program Descriptor :=
  if d.isOpen then d.closeSafe else return d

def finish (d : Descriptor) : Action Unit := do
  let (result, _) ← ExceptT.lift d.close
  MonadExcept.ofExcept result

def dropAll : List Descriptor → Program Unit
  | [] => return ()
  | d :: ds => do
    let _ ← d.drop
    dropAll ds

def setExactMode (d : Descriptor) (fd : Fd) (perm : Mode) : Action Unit := do
  match ← Action.ask (.changeMode fd perm) with
  | .ok () => return ()
  | .error e =>
    let _ ← ExceptT.lift d.drop
    throw (.callFailed "fchmod" ("on file " ++ d.name) e)

/-- Opens `file`. A file that was not there before and is made now gets exactly the permissions
asked for, whatever the creation mask is. -/
def openFile (file : File) (flags : OpenFlags) (perm : Mode) : Action Descriptor := do
  let name := file.name
  let existed := (← Action.ask (.probe file.path)).isSome
  let span := CallSpan.begin "open" name
  match ← Action.ask (.openFile file.path flags perm) with
  | .error e =>
    Action.log (span.failed e.text).completed
    throw (.openFailed name e)
  | .ok fd =>
    Action.log span.succeeded.completed
    let d := owning fd name
    if !existed && flags.has .create then d.setExactMode fd perm
    Action.log (d.notice fd "descriptor opened")
    return d

def read (d : Descriptor) (count : Nat) : Action Bytes :=
  match d.fd with
  | none => throw (.readFailed d.name .EBADF)
  | some fd => do Action.orFail (.readFailed d.name) (← Action.ask (.read fd count))

def write (d : Descriptor) (data : Bytes) : Action Nat :=
  match d.fd with
  | none => throw (.writeFailed d.name .EBADF)
  | some fd => do Action.orFail (.writeFailed d.name) (← Action.ask (.write fd data))

def writeAll (d : Descriptor) : Nat → Bytes → Action Unit
  | _, [] => return ()
  | 0, _ :: _ => Action.unfinished
  | rounds + 1, b :: bs => do
    match ← ExceptT.lift (d.write (b :: bs)).attempt with
    | .ok 0 => throw (.writeFailed d.name .EIO)
    | .ok (n + 1) => d.writeAll rounds (bs.drop n)
    | .error (.writeFailed _ .EINTR) => d.writeAll rounds (b :: bs)
    | .error f => throw f

/-- Reads on to the end of the stream, over interruptions, after the chunks in `content`, the
latest first. -/
def readOn (d : Descriptor) : Nat → List Bytes → Action Bytes
  | 0, _ => Action.unfinished
  | rounds + 1, content => do
    match ← ExceptT.lift (d.read Limits.readChunk).attempt with
    | .ok [] => return content.reverse.flatten
    | .ok (b :: bs) => d.readOn rounds ((b :: bs) :: content)
    | .error (.readFailed _ .EINTR) => d.readOn rounds content
    | .error f => throw f

def readToEnd (d : Descriptor) (rounds : Nat) : Action Bytes := d.readOn rounds []

def closeOnExec (d : Descriptor) : Action Unit :=
  match d.fd with
  | none => throw (.callFailed "fcntl" ("on closed file " ++ d.name) .EBADF)
  | some fd => do
    let _ ← Action.orFail (.callFailed "fcntl" ("reading descriptor flags for file " ++ d.name))
      (← Action.ask (.closesOnExec fd))
    Action.orFail (.callFailed "fcntl" ("setting close-on-exec for file " ++ d.name))
      (← Action.ask (.setCloseOnExec fd true))

end Descriptor

end OwnedHandles
