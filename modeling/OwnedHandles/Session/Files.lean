import OwnedHandles.Session.Basic

namespace OwnedHandles.Session

open Kernel

namespace FileStep

def run : FileStep → Work Report
  | info path => do
    let f : File := ⟨path⟩
    let there ← Work.run f.leadsSomewhere
    let isFifo ← Work.run f.isFifo
    return .record [("name", .text f.name), ("exists", .truth there), ("is_fifo", .truth isFifo)]
  | makeFifo path perm => do
    Work.perform (File.makeFifo ⟨path⟩ perm)
    return .nothing
  | remove path => do
    Work.perform (File.remove ⟨path⟩)
    return .nothing

end FileStep

namespace DescriptorStep

def opened (d : Descriptor) : Report :=
  .record [("name", .text d.name), ("open", .truth d.isOpen)]

def find (name : HandleName) : Work Descriptor := do
  match (← Work.session).descriptors.lookup name with
  | some d => return d
  | none => Work.refuse ("no descriptor " ++ name)

def keep (name : HandleName) (d : Descriptor) : Work Unit :=
  Work.update fun s => { s with descriptors := put name d s.descriptors }

def closesOnExec (d : Descriptor) : Work Report := do
  match d.fd with
  | none => return .nothing
  | some fd =>
    match ← Work.sys fun pid => Sys.closesOnExec pid fd with
    | .ok on => return .truth on
    | .error _ => return .nothing

def stateReport (d : Descriptor) : Work Report := do
  let handle := d.fd.isSome
  return .record [("open", .truth d.isOpen), ("active", .truth d.isActive), ("name", .text d.name),
    ("type", .text Descriptor.resourceType), ("has_fd", .truth handle),
    ("has_borrow", .truth handle), ("cloexec", ← closesOnExec d)]

def closing (name : HandleName) (p : Program (Except Failure Unit × Descriptor)) :
    Work Report := do
  let (result, d) ← Work.run p
  keep name d
  Work.ofResult result
  return .nothing

def closeNumber (fd : Option Fd) : Work Report := do
  if let some fd := fd then
    let _ ← Work.sys fun pid => Sys.close pid fd
  return .nothing

def run (name : HandleName) : DescriptorStep → Work Report
  | openFile path flags perm => do
    let d ← Work.perform (Descriptor.openFile ⟨path⟩ flags perm)
    if let some old := (← Work.session).descriptors.lookup name then
      let _ ← Work.run old.drop
    keep name d
    return opened d
  | drop => do
    match (← Work.session).descriptors.lookup name with
    | none => return .truth false
    | some d =>
      let _ ← Work.run d.drop
      Work.update fun s => { s with descriptors := without name s.descriptors }
      return .truth true
  | read count => do
    let data ← Work.perform ((← find name).read count)
    return .record [("count", .number data.length), ("data", .bytes data)]
  | readToEnd => return .bytes (← Work.perform ((← find name).readToEnd Work.rounds))
  | write data => return .number (← Work.perform ((← find name).write data))
  | writeAll data => do
    Work.perform ((← find name).writeAll Work.rounds data)
    return .nothing
  | close => do closing name (← find name).close
  | release => do closing name (← find name).release
  | closeSafe => do
    keep name (← Work.run (← find name).closeSafe)
    return .nothing
  | letGo => do
    keep name (← Work.run (← find name).drop)
    return .nothing
  | closeOnExec => do
    Work.perform (← find name).closeOnExec
    return .nothing
  | closeBehind => do closeNumber (← find name).fd
  | state => do stateReport (← find name)

end DescriptorStep

end OwnedHandles.Session
