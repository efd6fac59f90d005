import OwnedHandles.Descriptor

namespace OwnedHandles

structure AddressRange where
  start : Address
  length : Nat
  deriving DecidableEq, Repr

structure MappedFile where
  file : File
  size : Nat
  offset : Nat
  readable : Bool
  writable : Bool
  permissions : Mode
  address : Option Address := none
  descriptor : Option Descriptor := none
  mapped : Bool := false
  deriving DecidableEq, Repr

namespace MappedFile

def resourceType : String := "map_file"

def wordLimit : Nat := 0x10000000000000000

def pageRule (what : String) : String :=
  "map " ++ what ++ " must be a multiple of " ++ toString Limits.pageSize

/-- Describes a mapping; nothing is opened yet. What breaks a rule is given back instead. -/
def describe (file : File) (size offset : Nat) (readable writable : Bool) (permissions : Mode) :
    Except String MappedFile :=
  if !(readable || writable) then .error "a mapping must be readable or writable"
  else if size % Limits.pageSize ≠ 0 then .error (pageRule "size")
  else if offset % Limits.pageSize ≠ 0 then .error (pageRule "offset")
  else .ok { file, size, offset, readable, writable, permissions }

def isLoaded (m : MappedFile) : Bool := m.address.isSome

def isActive (m : MappedFile) : Bool := m.address.isSome || m.descriptor.isSome

def slice? (m : MappedFile) : Option AddressRange :=
  if m.mapped && m.readable then m.address.map fun start => ⟨start, m.size⟩ else none

def mutableSlice? (m : MappedFile) : Option AddressRange :=
  if m.mapped && m.writable then m.address.map fun start => ⟨start, m.size⟩ else none

def context (m : MappedFile) : String := "on file " ++ m.file.name

def openBacking (m : MappedFile) : Program (Except Failure Unit × MappedFile) := do
  let flags := OpenFlags.forAccess m.readable m.writable
  match ← (Descriptor.openFile m.file flags m.permissions).attempt with
  | .error f => return (.error f, m)
  | .ok d =>
    Descriptor.dropAll m.descriptor.toList
    return (.ok (), { m with descriptor := some d })

def closeBacking (m : MappedFile) : Program (Except Failure Unit × MappedFile) :=
  match m.descriptor with
  | none => return (.ok (), m)
  | some d => do
    let (result, _) ← d.close
    return (result, { m with descriptor := none })

def mapMemory (m : MappedFile) : Program (Except Failure Unit × MappedFile) :=
  match m.descriptor.bind Descriptor.fd with
  | none => return (.error (.callFailed "mmap" m.context .EBADF), m)
  | some fd =>
    if m.size = 0 then return (.error (.callFailed "mmap" m.context .EINVAL), m)
    else do
      match ← Program.ask (.mapMemory m.size m.readable m.writable fd m.offset) with
      | .ok address =>
        Program.log { level := .debug, source := .mapping, message := "file mapped"
                      fields := [("path", .text m.file.name), ("size", .number m.size)] }
        return (.ok (), { m with address := some address, mapped := true })
      | .error e =>
        return (.error (.callFailed "mmap" m.context e), { m with mapped := false })

def unmapMemory (m : MappedFile) : Program (Except Failure Unit × MappedFile) :=
  match m.address with
  | none => return (.ok (), m)
  | some address => do
    match ← Program.ask (.unmapMemory address m.size) with
    | .ok () =>
      Program.log { level := .debug, source := .mapping, message := "file unmapped"
                    fields := [("path", .text m.file.name)] }
      return (.ok (), { m with address := none, mapped := false })
    | .error e =>
      return (.error (.callFailed "munmap" m.context e), { m with mapped := true })

/-- A mapped file must not be mapped again. This is the debug build: in a release build there is no
such assertion. -/
def map (m : MappedFile) : Program (Except Failure Unit × MappedFile) := do
  if m.mapped then .abort (m.file.name ++ " is already mapped")
  let (opened, m) ← m.openBacking
  match opened with
  | .error f => return (.error f, m)
  | .ok () => m.mapMemory

def unmap (m : MappedFile) : Program (Except Failure Unit × MappedFile) := do
  let (unmapped, m) ← m.unmapMemory
  match unmapped with
  | .error f => return (.error f, m)
  | .ok () => m.closeBacking

def release (m : MappedFile) : Program (Except Failure Unit × MappedFile) := m.unmap

def letGo (m : MappedFile) : Program MappedFile := do
  let (unmapped, m) ← m.unmapMemory
  if let .error f := unmapped then
    Program.log { level := .warn, source := .mapping, message := "unmap on drop failed"
                  fields := [("resource", .text resourceType), ("path", .text m.file.name),
                    ("error", .text f.message)] }
  match m.descriptor with
  | none => return m
  | some d =>
    let _ ← d.closeSafe
    return { m with descriptor := none }

def zeroPage : Bytes := List.replicate Limits.pageSize 0

def writePages (d : Descriptor) (rounds : Nat) : Nat → Action Unit
  | 0 => return ()
  | pages + 1 => do
    d.writeAll rounds zeroPage
    writePages d rounds pages

/-- Writes zeros up to the end of the range. In the debug build the sum of two words breaks when it
is no word; in a release build it would wrap. -/
def fill (m : MappedFile) (d : Descriptor) (rounds : Nat) : Action Unit :=
  if wordLimit ≤ m.size + m.offset then Action.abort "attempt to add with overflow"
  else writePages d rounds ((m.size + m.offset) / Limits.pageSize)

def zero (m : MappedFile) (rounds : Nat) : Action Unit := do
  if !m.writable then Action.abort "only writable maps can be zeroed"
  let d ← Descriptor.openFile m.file (OpenFlags.forAccess false true) m.permissions
  (m.fill d rounds).onLeave (Descriptor.dropAll [d])
  d.finish

end MappedFile

end OwnedHandles
