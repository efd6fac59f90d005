import OwnedHandles.Kernel.Adjustment
import OwnedHandles.Kernel.Walk

/-!
Calls on files: opening, reading, writing, making, removing and mapping them. Whoever calls owns
all files and is bound by the permissions of the owner.
-/

namespace OwnedHandles.Kernel

namespace Sys

def probe (pid : Pid) (path : Bytes) : Sys (Option FileKind) := do
  let s ← getThe State
  match Walk.find s pid true path with
  | .ok i => return some (s.content i).kind
  | .error _ => return none

def handle (pid : Pid) (fd : Fd) : Sys Handle := do
  match (← getThe State).handle? pid fd with
  | some h => return h
  | none => fail .EBADF

def openFileOf (pid : Pid) (fd : Fd) : Sys (OpenFileId × OpenFile) := do
  let h ← handle pid fd
  return (h.openFile, (← getThe State).openFiles.getD h.openFile default)

def reserve (pid : Pid) : Sys Fd := do
  let s ← getThe State
  let fd := s.lowestFree pid
  require (fd < s.handleLimit) .EMFILE
  return fd

def create (directory : InodeId) (name : Bytes) (n : Inode) : Sys InodeId := do
  let s ← getThe State
  require (Walk.mayChange s directory) .EACCES
  let (s, i) := s.addNamed directory name n
  set s
  return i

def creationMask (pid : Pid) : Sys Mode := do
  return (← getThe State).creationMask pid

def pathOnlyFlags : OpenFlags :=
  .pathOnly ||| .directory ||| .noFollow ||| .closeOnExec

def effectiveFlags (flags : OpenFlags) : OpenFlags :=
  if flags.has .pathOnly then flags &&& pathOnlyFlags else flags

def checkFlags (flags : OpenFlags) : Sys Unit := do
  require (!(flags.has .create && flags.has .directory)) .EINVAL
  require (!(flags.has .temporary && flags.accessMode = 0)) .EINVAL

def wantsWrite (flags : OpenFlags) : Bool := flags.accessMode ≠ 0 || flags.has .truncate

def wantsRead (flags : OpenFlags) : Bool := flags.accessMode ≠ 1

def permit (s : State) (flags : OpenFlags) (i : InodeId) : Sys Unit := do
  if flags.has .create then
    require (!flags.has .exclusive) .EEXIST
    require (!s.isDirectory i) .EISDIR
  if flags.has .pathOnly then
    require (!(flags.has .directory && !s.isDirectory i)) .ENOTDIR
  else
    require ((s.content i).kind ≠ .symlink) .ELOOP
    require (!(flags.has .directory && !s.isDirectory i)) .ENOTDIR
    require (!(s.isDirectory i && wantsWrite flags)) .EISDIR
    let mode := (s.inode i).mode
    require (!wantsRead flags || mode.ownerRead) .EACCES
    require (!wantsWrite flags || mode.ownerWrite) .EACCES

/-- A FIFO opens when the other side is there, or at once for whoever does not block. -/
def meet (s : State) (flags : OpenFlags) (i : InodeId) : Sys Unit := do
  match flags.accessMode with
  | 0 => if !flags.has .nonblock && !s.hasWriter i then throw .blocked
  | 1 =>
    if !s.hasReader i then
      if flags.has .nonblock then fail .ENXIO else throw .blocked
  | 2 => return ()
  | _ => fail .EINVAL

def replaceContent (pid : Pid) (i : InodeId) (bytes slack : ByteArray) : Sys Unit :=
  update fun s => (s.setContent i (.regular bytes slack)).setMode i (s.modeAfterWrite pid i)

def settle (pid : Pid) (flags : OpenFlags) (i : InodeId) : Sys Unit := do
  let s ← getThe State
  if flags.has .pathOnly then return ()
  match s.content i with
  | .regular .. => if flags.has .truncate then replaceContent pid i .empty .empty
  | .fifo _ => meet s flags i
  | _ => return ()

def install (pid : Pid) (fd : Fd) (f : OpenFile) (closeOnExec : Bool) : Sys Unit :=
  update fun s =>
    let (s, id) := s.addOpenFile f
    s.putHandle pid fd ⟨id, closeOnExec⟩

def openAt (pid : Pid) (flags : OpenFlags) (mode : Mode) (place : Place) : Sys InodeId := do
  let s ← getThe State
  require (!(flags.has .create && place.slashed && place.name.isSome)) .EISDIR
  match place.inode, place.name with
  | none, some name =>
    require (flags.has .create) .ENOENT
    create place.directory name (s.newInode pid place.directory (.ofBytes []) mode)
  | _, _ =>
    let i ← ofExcept (Walk.existing s place)
    permit s flags i
    return i

def openUnnamed (pid : Pid) (mode : Mode) (place : Place) : Sys InodeId := do
  let s ← getThe State
  let directory ← ofExcept (Walk.existing s place)
  require (s.isDirectory directory) .ENOTDIR
  require (Walk.mayChange s directory) .EACCES
  let (s, i) := s.addInode (s.newInode pid directory (.ofBytes []) mode)
  set s
  return i

/-- The place that a path names for an opening. A link is not followed where a file that must be
new would be made, nor before a slash behind which a file can not be made anyway. -/
def placeToOpen (pid : Pid) (path : Bytes) (flags : OpenFlags) : Sys Place := do
  let s ← getThe State
  if flags.has .create && Walk.endsWithSlash path then ofExcept (Walk.entry s pid path)
  else
    let follow := !flags.has .noFollow && !(flags.has .create && flags.has .exclusive)
    ofExcept (Walk.place s pid follow path)

def openFile (pid : Pid) (path : Bytes) (flags : OpenFlags) (mode : Mode) : Sys Fd := do
  let flags := effectiveFlags flags
  if path.contains 0 then fail .EINVAL
  checkFlags flags
  ofExcept (Walk.check path)
  let fd ← reserve pid
  let place ← placeToOpen pid path flags
  let i ← if flags.has .temporary then openUnnamed pid mode place else openAt pid flags mode place
  settle pid flags i
  install pid fd { inode := i, flags } (flags.has .closeOnExec)
  return fd

def statusText (p : Process) : Bytes :=
  let digits (m : SignalMask) : String :=
    String.ofList ((List.range 16).reverse.map fun k =>
      Bytes.hexDigit (UInt8.ofNat ((m >>> (4 * k)).toNat % 16)))
  let ignored := (List.range 64).foldl (fun (m : SignalMask) k =>
    match p.dispositions (k + 1) with
    | .ignored => m ||| (1#64 <<< k)
    | _ => m) 0#64
  let line (name value : String) : String := name ++ ":\t" ++ value ++ "\n"
  Bytes.ofString (line "Pid" (toString p.pid) ++ line "PPid" (toString p.parent)
    ++ line "SigBlk" (digits p.mask) ++ line "SigIgn" (digits ignored))

def advance (id : OpenFileId) (offset : Nat) : Sys Unit :=
  update fun s =>
    { s with openFiles := s.openFiles.modify id fun f => { f with offset } }

def slice (data : ByteArray) (offset count : Nat) : Bytes :=
  (data.extract offset (offset + count)).data.toList

def read (pid : Pid) (fd : Fd) (count : Nat) : Sys Bytes := do
  let (id, f) ← openFileOf pid fd
  require (f.flags.canRead && !f.flags.has .pathOnly) .EBADF
  let s ← getThe State
  let from' (data : ByteArray) : Sys Bytes := do
    let bytes := slice data f.offset count
    advance id (f.offset + bytes.length)
    return bytes
  match s.content f.inode with
  | .regular data _ => from' data
  | .directory .. => fail .EISDIR
  | .fifo b =>
    if count = 0 then return []
    else if b.isEmpty then
      if !s.hasWriter f.inode then return []
      else if f.flags.has .nonblock then fail .EAGAIN
      else throw .blocked
    else
      let (bytes, b) := b.take count
      set (s.setContent f.inode (.fifo b))
      return bytes
  | .symlink _ => fail .EBADF
  | .device .null => return []
  | .device _ => return List.replicate count 0
  | .tool _ => return []
  | .ownStatus => from' ⟨((s.process? pid).map statusText |>.getD []).toArray⟩
  | .ownAdjustment =>
    from' ⟨((s.process? pid).map (Adjustment.text ·.adjustment) |>.getD []).toArray⟩

def padded (data : ByteArray) (size : Nat) : ByteArray :=
  if data.size < size then data ++ ⟨Array.replicate (size - data.size) 0⟩ else data

def overwrite (data : ByteArray) (offset : Nat) (new : ByteArray) : ByteArray :=
  new.copySlice 0 (padded data offset) offset new.size

def writeFifo (s : State) (f : OpenFile) (b : PipeBuffer) (data : Bytes) : Sys Nat := do
  if data = [] then return 0
  require (s.hasReader f.inode) .EPIPE
  let (b, rest) := b.put data
  let room := rest = [] ∨ f.flags.has .nonblock ∧ PipeBuffer.slotSize < data.length
    ∧ rest.length < data.length
  if room then
    set (s.setContent f.inode (.fifo b))
    return data.length - rest.length
  else if f.flags.has .nonblock then fail .EAGAIN
  else throw .blocked

def adjust (pid : Pid) (data : Bytes) : Sys Nat := do
  let taken := data.take Adjustment.room
  let adjustment ← ofExcept (Adjustment.ofText taken)
  update fun s => s.modifyProcess pid fun p => { p with adjustment }
  return taken.length

def write (pid : Pid) (fd : Fd) (data : Bytes) : Sys Nat := do
  let (id, f) ← openFileOf pid fd
  require (f.flags.canWrite && !f.flags.has .pathOnly) .EBADF
  let s ← getThe State
  match s.content f.inode with
  | .regular bytes slack =>
    if data = [] then return 0
    let offset := if f.flags.has .append then bytes.size else f.offset
    let written := overwrite bytes offset ⟨data.toArray⟩
    replaceContent pid f.inode written (if written.size = bytes.size then slack else .empty)
    advance id (offset + data.length)
    return data.length
  | .fifo b => writeFifo s f b data
  | .device .full => fail .ENOSPC
  | .device _ => return data.length
  | .ownAdjustment => adjust pid data
  | _ => fail .EBADF

def close (pid : Pid) (fd : Fd) : Sys Unit := do
  let _ ← handle pid fd
  update fun s => s.closeHandles pid fun h => h.1 = fd

def closesOnExec (pid : Pid) (fd : Fd) : Sys Bool := return (← handle pid fd).closeOnExec

def setCloseOnExec (pid : Pid) (fd : Fd) (on : Bool) : Sys Unit := do
  let _ ← handle pid fd
  update fun s => s.modifyProcess pid fun p =>
    { p with handles := p.handles.map fun h =>
        if h.1 = fd then (fd, { h.2 with closeOnExec := on }) else h }

def duplicate (pid : Pid) (fd target : Fd) : Sys Unit := do
  let h ← handle pid fd
  require (target < (← getThe State).handleLimit) .EBADF
  if fd ≠ target then update fun s => s.putHandle pid target { h with closeOnExec := false }

def makePipe (pid : Pid) : Sys (Fd × Fd) := do
  let s ← getThe State
  let (s, i) := s.addInode { content := .fifo {}, mode := 0o600#12 }
  let r ← reserve pid
  let (s, readEnd) := s.addOpenFile { inode := i, flags := 0#32 }
  let (s, writeEnd) := s.addOpenFile { inode := i, flags := OpenFlags.writeOnly }
  let s := s.putHandle pid r ⟨readEnd, true⟩
  let w := s.lowestFree pid
  require (w < s.handleLimit) .EMFILE
  set (s.putHandle pid w ⟨writeEnd, true⟩)
  return (r, w)

def changeMode (pid : Pid) (fd : Fd) (mode : Mode) : Sys Unit := do
  let (_, f) ← openFileOf pid fd
  require (!f.flags.has .pathOnly) .EBADF
  update fun s => s.setMode f.inode (s.granted pid f.inode mode)

def makeNode (pid : Pid) (path : Bytes) (slashes : Bool) (c : InodeId → Content) (mode : Mode) :
    Sys Unit := do
  let s ← getThe State
  let place ← ofExcept (Walk.entry s pid path)
  match place.name, place.inode with
  | some name, none =>
    require (slashes || !place.slashed) .ENOENT
    let _ ← create place.directory name (s.newInode pid place.directory (c place.directory) mode)
  | _, _ => fail .EEXIST

def makeFifo (pid : Pid) (path : Bytes) (mode : Mode) : Sys Unit :=
  makeNode pid path false (fun _ => .fifo {}) mode

def makeDirectory (pid : Pid) (path : Bytes) (mode : Mode) : Sys Unit :=
  makeNode pid path true (fun parent => .directory parent []) mode

def makeSymlink (pid : Pid) (path target : Bytes) : Sys Unit := do
  ofExcept (Walk.check target)
  makeNode pid path false (fun _ => .symlink target) 0o777

def unlink (pid : Pid) (path : Bytes) : Sys Unit := do
  let s ← getThe State
  let place ← ofExcept (Walk.entry s pid path)
  match place.name, place.inode with
  | some name, some i =>
    require (!place.slashed || s.isDirectory i) .ENOTDIR
    require (!(place.slashed && s.isDirectory i)) .EISDIR
    require (Walk.mayChange s place.directory) .EACCES
    require (!s.isDirectory i) .EISDIR
    update fun s => s.unlink place.directory name
  | some _, none => fail .ENOENT
  | none, _ => fail .EISDIR

end Sys

end OwnedHandles.Kernel
