import OwnedHandles.Descriptor

namespace OwnedHandles

namespace File

def isFifo (f : File) : Program Bool := do
  match ← Program.ask (.probe f.path) with
  | some .fifo => return true
  | _ => return false

def leadsSomewhere (f : File) : Program Bool := return (← Program.ask (.probe f.path)).isSome

def makeFifo (f : File) (perm : Mode) : Action Unit := do
  Action.orFail (.callFailed "mkfifo" ("on file " ++ f.name))
    (← Action.ask (.makeFifo f.path perm))

def remove (f : File) : Action Unit := do
  Action.orFail (.removeFailed f.name) (← Action.ask (.unlink f.path))

end File

structure FifoConnection where
  file : File
  descriptor : Option Descriptor := none
  /-- Whether reads wait for a message, as the last successful opening asked. -/
  blocking : Bool := true
  deriving DecidableEq, Repr

namespace FifoConnection

inductive Direction
  | read | write | readWrite
  deriving DecidableEq, Repr

def Direction.flags : Direction → OpenFlags
  | read => 0#32
  | write => OpenFlags.writeOnly
  | readWrite => OpenFlags.readWrite

def openFile (c : FifoConnection) (direction : Direction) (block : Bool) :
    Action FifoConnection := do
  if c.descriptor.isSome then
    Action.abort ("FIFO " ++ c.file.name ++ " is already open")
  let flags := if block then direction.flags else direction.flags ||| OpenFlags.nonblock
  let d ← Descriptor.openFile c.file flags 0#12
  return { c with descriptor := some d, blocking := block }

def close (c : FifoConnection) : Program (Except Failure Unit × FifoConnection) :=
  match c.descriptor with
  | none => return (.ok (), c)
  | some d => do
    let (result, _) ← d.close
    return (result, { c with descriptor := none })

def drop (c : FifoConnection) : Program Unit := Descriptor.dropAll c.descriptor.toList

def checkLength (message : Bytes) : Action Unit :=
  if message.length = 0 ∨ Limits.fifoMessage ≤ message.length then
    throw (.invalidMessage message.length Limits.fifoMessage)
  else return ()

def held (c : FifoConnection) : Action Descriptor :=
  match c.descriptor with
  | some d => return d
  | none =>
    throw (.callFailed "open" ("FIFO " ++ c.file.name ++ " has no open descriptor") .EBADF)

/-- Writes one message over the held descriptor, in one call. -/
def send (c : FifoConnection) (message : Bytes) : Action Unit := do
  checkLength message
  let d ← c.held
  let _ ← d.write message

/-- Reads what one call gives, polling while there is nothing, or taking the end of the stream
for an empty message. -/
def readMessageFrom (d : Descriptor) (acceptEnd : Bool) : Nat → Action String
  | 0 => Action.unfinished
  | rounds + 1 => do
    match ← d.read (Limits.fifoMessage - 1) with
    | [] =>
      if acceptEnd then return ""
      Action.ask (.pause Limits.fifoPollMilliseconds)
      readMessageFrom d acceptEnd rounds
    | data => return Text.decodeLossy data

def read (c : FifoConnection) (rounds : Nat) : Action String := do
  let d ← c.held
  readMessageFrom d (!c.blocking) rounds

def warnUnlessFifo (c : FifoConnection) : Action Unit := do
  if !(← ExceptT.lift c.file.isFifo) then
    Action.log { level := .warn, source := .fifo, message := "not a FIFO"
                 fields := [("path", .text c.file.name)] }

def sendMessage (c : FifoConnection) (message : Bytes) : Action Unit := do
  c.warnUnlessFifo
  checkLength message
  let d ← Descriptor.openFile c.file OpenFlags.writeOnly 0#12
  let _ ← (d.write message).onLeave (Descriptor.dropAll [d])
  d.finish

def readMessage (c : FifoConnection) (rounds : Nat) : Action String := do
  c.warnUnlessFifo
  let d ← Descriptor.openFile c.file 0#32 0#12
  let message ← (readMessageFrom d false rounds).onLeave (Descriptor.dropAll [d])
  d.finish
  return message

end FifoConnection

end OwnedHandles
