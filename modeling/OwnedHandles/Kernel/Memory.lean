import OwnedHandles.Kernel.Files

namespace OwnedHandles.Kernel

namespace Memory

def pageSize : Nat := Limits.pageSize

def largestRange : Nat := 0x555555550000

def storage : Nat := 0x1000000000

def firstAddress : Address := 0x10000

def roundUp (n : Nat) : Nat := (n + pageSize - 1) / pageSize * pageSize

def nextAddress (s : State) : Address :=
  s.mappings.foldl (fun a m => max a (m.address + roundUp m.size)) firstAddress

def canBeMapped : Content → Bool
  | .regular .. | .tool _ | .device .zero => true
  | _ => false

/-- A mapping ends before this offset: signed for what has a size, unsigned for the rest. -/
def offsetLimit : Content → Nat
  | .regular .. | .tool _ => 0x8000000000000000
  | _ => 0x10000000000000000

end Memory

namespace Sys

open Memory

def mapMemory (pid : Pid) (size : Nat) (writable : Bool) (fd : Fd) (offset : Nat) :
    Sys Address := do
  let (_, f) ← openFileOf pid fd
  require (!f.flags.has .pathOnly) .EBADF
  let s ← getThe State
  let content := s.content f.inode
  require (0 < size && offset % pageSize = 0) .EINVAL
  require (size ≤ largestRange) .ENOMEM
  require (offset + roundUp size < offsetLimit content) .EOVERFLOW
  require (!writable || f.flags.canWrite) .EACCES
  require (f.flags.canRead) .EACCES
  require (canBeMapped content) .ENODEV
  require (!(content matches .device .zero && writable && storage < size)) .ENOMEM
  let address := nextAddress s
  set { s with mappings := ⟨address, size, f.inode, offset⟩ :: s.mappings }
  return address

def unmapMemory (address : Address) : Sys Unit :=
  update fun s => { s with mappings := s.mappings.filter fun m => m.address ≠ address }

end Sys

namespace State

def mappingAt? (s : State) (address : Address) : Option Mapping :=
  s.mappings.find? fun m => m.address ≤ address && address < m.address + m.size

def load (s : State) (address : Address) (count : Nat) : Bytes :=
  match s.mappingAt? address with
  | none => []
  | some m =>
    let offset := m.offset + (address - m.address)
    match s.content m.inode with
    | .regular data slack => Sys.slice (Sys.padded (data ++ slack) (offset + count)) offset count
    | _ => List.replicate count 0

def store (s : State) (address : Address) (bytes : Bytes) : State :=
  match s.mappingAt? address with
  | none => s
  | some m =>
    let offset := m.offset + (address - m.address)
    match s.content m.inode with
    | .regular data slack =>
      let all := Sys.overwrite (data ++ slack) offset ⟨bytes.toArray⟩
      s.setContent m.inode
        (.regular (all.extract 0 data.size) (all.extract data.size all.size))
    | _ => s

end State

end OwnedHandles.Kernel
