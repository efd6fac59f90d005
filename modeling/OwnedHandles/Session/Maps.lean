import OwnedHandles.Session.Files

namespace OwnedHandles.Session

open Kernel

namespace MapStep

def find (name : HandleName) : Work MappedFile := do
  match (← Work.session).maps.lookup name with
  | some m => return m
  | none => Work.refuse ("no map " ++ name)

def keep (name : HandleName) (m : MappedFile) : Work Unit :=
  Work.update fun s => { s with maps := put name m s.maps }

def dropOld (name : HandleName) : Work Bool := do
  match (← Work.session).maps.lookup name with
  | some old =>
    let _ ← Work.run old.letGo
    return true
  | none => return false

def changing (name : HandleName) (p : MappedFile → Program (Except Failure Unit × MappedFile)) :
    Work Report := do
  let (result, m) ← Work.run (p (← find name))
  keep name m
  Work.ofResult result
  return .nothing

def zeroLimit : Nat := 4 * 1024 * 1024

def fileLength (s : Session) (fd : Option Fd) : Nat :=
  match fd.bind (s.kernel.handle? s.self) with
  | none => 0
  | some h =>
    match s.kernel.content (s.kernel.openFiles.getD h.openFile default).inode with
    | .regular data _ => data.size
    | _ => 0

/-- How many mapped bytes can be reached: whole pages of the file, as far as it goes. -/
def reach (s : Session) (m : MappedFile) : Nat :=
  let length := fileLength s (m.descriptor.bind Descriptor.fd)
  min m.size (Memory.roundUp (length - m.offset))

def reachable (m : MappedFile) (slice : Option AddressRange) (start count : Nat) :
    Work (Option Address) := do
  match slice with
  | none => return none
  | some range =>
    if reach (← Work.session) m < start + count then
      Work.refuse "beyond the end of the file"
    return some (range.start + start)

def stateReport (m : MappedFile) : Report :=
  let size (slice : Option AddressRange) : Report :=
    .optional (fun range => .number range.length) slice
  .record [("file", .text m.file.name), ("size", .number m.size), ("offset", .number m.offset),
    ("mapped", .truth m.mapped), ("loaded", .truth m.isLoaded), ("active", .truth m.isActive),
    ("type", .text MappedFile.resourceType), ("has_address", .truth m.address.isSome),
    ("descriptor", .optional (fun d => .list [.text d.name, .truth d.isOpen]) m.descriptor),
    ("slice_len", size m.slice?), ("mut_slice_len", size m.mutableSlice?)]

def run (name : HandleName) : MapStep → Work Report
  | new path size offset readable writable perm => do
    match MappedFile.describe ⟨path⟩ size offset readable writable perm with
    | .error message => throw (.broken message)
    | .ok m =>
      let _ ← dropOld name
      keep name m
      return .nothing
  | drop => do
    let there ← dropOld name
    Work.update fun s => { s with maps := without name s.maps }
    return .truth there
  | map => changing name MappedFile.map
  | unmap => changing name MappedFile.unmap
  | release => changing name MappedFile.release
  | letGo => do
    keep name (← Work.run (← find name).letGo)
    return .nothing
  | zero => do
    let m ← find name
    let total := m.size + m.offset
    if zeroLimit < total ∧ total < MappedFile.wordLimit then Work.refuse "too much to zero"
    Work.perform (m.zero Work.rounds)
    return .nothing
  | closeBehind => do DescriptorStep.closeNumber ((← find name).descriptor.bind Descriptor.fd)
  | state => return stateReport (← find name)
  | read start count => do
    let m ← find name
    match ← reachable m m.slice? start count with
    | none => return .nothing
    | some address => return .bytes ((← Work.session).kernel.load address count)
  | write start data => do
    let m ← find name
    match ← reachable m m.mutableSlice? start data.length with
    | none => return .truth false
    | some address =>
      Work.update fun s => { s with kernel := s.kernel.store address data }
      return .truth true

end MapStep

end OwnedHandles.Session
