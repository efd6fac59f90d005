import OwnedHandles.Call
import OwnedHandles.Kernel.PipeBuffer

namespace OwnedHandles.Kernel

abbrev InodeId := Nat

abbrev OpenFileId := Nat

inductive Device
  | null | zero | full
  deriving DecidableEq, Repr

inductive Tool
  | cat | echo | env | failure | printf | shell | sleep | success
  deriving DecidableEq, Repr

inductive Content
  /-- The bytes of a file. A mapping may have stored more bytes in the rest of the last page. -/
  | regular (data slack : ByteArray)
  | directory (parent : InodeId) (entries : List (Bytes × InodeId))
  | fifo (buffer : PipeBuffer)
  | symlink (target : Bytes)
  | device (d : Device)
  | tool (t : Tool)
  | ownStatus
  | ownAdjustment
  deriving Inhabited

namespace Content

def ofBytes (bs : Bytes) : Content := regular ⟨bs.toArray⟩ .empty

def kind : Content → FileKind
  | regular .. | tool _ | ownStatus | ownAdjustment => .regular
  | directory .. => .directory
  | fifo _ => .fifo
  | symlink _ => .symlink
  | device _ => .device

end Content

abbrev GroupId := Nat

structure Inode where
  content : Content
  mode : Mode
  group : GroupId := 0
  deriving Inhabited

/-- One opening of a file, shared by all handles that were copied from the first one. -/
structure OpenFile where
  inode : InodeId
  flags : OpenFlags
  offset : Nat := 0
  deriving Inhabited

structure Handle where
  openFile : OpenFileId
  closeOnExec : Bool := false

inductive Life
  | running
  | ready (task : ChildTask)
  /-- Asleep; left alone it ends with this word, if ever. -/
  | asleep (wakesTo : Option (BitVec 32))
  | stopped (wakesTo : Option (BitVec 32))
  | ended (word : BitVec 32)

/-- What keeps a process from ending as soon as its program has come to its end. -/
inductive Delay
  | none | sleep | stop
  deriving DecidableEq, Repr

structure Credentials where
  /-- The group that the files it makes belong to. -/
  group : GroupId := 0
  otherGroups : List GroupId := []
  /-- The process may give the set-id bits to any file, and its writes leave them. -/
  privileged : Bool := false

namespace Credentials

def isMember (c : Credentials) (g : GroupId) : Bool := g = c.group || c.otherGroups.contains g

/-- What a file of this group gets when these permissions are asked for. To a process outside of the
group the bit is not refused but left out. -/
def granted (c : Credentials) (g : GroupId) (m : Mode) : Mode :=
  if c.privileged || c.isMember g then m else m.withoutSetGroup

def afterWrite (c : Credentials) (g : GroupId) (m : Mode) : Mode :=
  if c.privileged then m else m.afterWrite (c.isMember g)

end Credentials

structure Process where
  pid : Pid
  parent : Pid
  handles : List (Fd × Handle) := []
  mask : SignalMask := SignalMask.none
  dispositions : Dispositions := fun _ => .byDefault
  pending : List Nat := []
  creationMask : Mode := 0o022#12
  credentials : Credentials := {}
  directory : InodeId := 0
  environment : List Bytes := []
  delay : Delay := .none
  adjustment : Int := 0
  life : Life := .running

structure Mapping where
  address : Address
  size : Nat
  inode : InodeId
  offset : Nat

structure State where
  inodes : Array Inode
  openFiles : Array OpenFile := #[]
  processes : List Process := []
  mappings : List Mapping := []
  nextPid : Pid := 2
  handleLimit : Nat := 1024

namespace State

def inode (s : State) (i : InodeId) : Inode := s.inodes.getD i default

def content (s : State) (i : InodeId) : Content := (s.inode i).content

def setContent (s : State) (i : InodeId) (c : Content) : State :=
  { s with inodes := s.inodes.modify i fun n => { n with content := c } }

def setMode (s : State) (i : InodeId) (m : Mode) : State :=
  { s with inodes := s.inodes.modify i fun n => { n with mode := m } }

def isDirectory (s : State) (i : InodeId) : Bool := (s.content i).kind = .directory

def process? (s : State) (pid : Pid) : Option Process := s.processes.find? fun p => p.pid = pid

def credentials (s : State) (pid : Pid) : Credentials :=
  ((s.process? pid).map Process.credentials).getD {}

def creationMask (s : State) (pid : Pid) : Mode :=
  ((s.process? pid).map Process.creationMask).getD 0#12

def groupIn (s : State) (pid : Pid) (directory : InodeId) : GroupId :=
  let d := s.inode directory
  if d.mode.setsGroup then d.group else (s.credentials pid).group

def granted (s : State) (pid : Pid) (i : InodeId) (m : Mode) : Mode :=
  (s.credentials pid).granted (s.inode i).group m

def modeAfterWrite (s : State) (pid : Pid) (i : InodeId) : Mode :=
  (s.credentials pid).afterWrite (s.inode i).group (s.inode i).mode

/-- What a process makes in a directory. Links have all permissions, and below a directory that
hands its group on all directories do. -/
def newInode (s : State) (pid : Pid) (directory : InodeId) (c : Content) (m : Mode) : Inode :=
  let group := s.groupIn pid directory
  let given :=
    match c.kind with
    | .symlink => 0o777#12
    | .directory =>
      let m := m.masked (s.creationMask pid)
      if (s.inode directory).mode.setsGroup then m ||| 0o2000#12 else m
    | _ =>
      let m := if m.groupExecute then (s.credentials pid).granted group m else m
      m.masked (s.creationMask pid)
  ⟨c, given, group⟩

def modifyProcess (s : State) (pid : Pid) (f : Process → Process) : State :=
  { s with processes := s.processes.map fun p => if p.pid = pid then f p else p }

def handles (s : State) (pid : Pid) : List (Fd × Handle) :=
  ((s.process? pid).map Process.handles).getD []

def handle? (s : State) (pid : Pid) (fd : Fd) : Option Handle :=
  (s.handles pid).lookup fd

def addInode (s : State) (n : Inode) : State × InodeId :=
  ({ s with inodes := s.inodes.push n }, s.inodes.size)

def addOpenFile (s : State) (f : OpenFile) : State × OpenFileId :=
  ({ s with openFiles := s.openFiles.push f }, s.openFiles.size)

def link (s : State) (directory : InodeId) (name : Bytes) (i : InodeId) : State :=
  match s.content directory with
  | .directory parent entries =>
    s.setContent directory (.directory parent ((name, i) :: entries.filter fun e => e.1 ≠ name))
  | _ => s

def unlink (s : State) (directory : InodeId) (name : Bytes) : State :=
  match s.content directory with
  | .directory parent entries =>
    s.setContent directory (.directory parent (entries.filter fun e => e.1 ≠ name))
  | _ => s

def addNamed (s : State) (directory : InodeId) (name : Bytes) (n : Inode) : State × InodeId :=
  let (s, i) := s.addInode n
  (s.link directory name i, i)

def held (s : State) : List OpenFileId :=
  s.processes.flatMap fun p => p.handles.map fun h => h.2.openFile

def holds (s : State) (i : InodeId) (wanted : OpenFlags → Bool) : Bool :=
  s.held.any fun id =>
    let f := s.openFiles.getD id default
    f.inode = i && !f.flags.has .pathOnly && wanted f.flags

def hasReader (s : State) (i : InodeId) : Bool := s.holds i OpenFlags.canRead

def hasWriter (s : State) (i : InodeId) : Bool := s.holds i OpenFlags.canWrite

/-- What is left in a FIFO goes when the last handle on it goes. -/
def settleFifo (s : State) (i : InodeId) : State :=
  match s.content i with
  | .fifo b => if b.isEmpty ∨ s.holds i (fun _ => true) then s else s.setContent i (.fifo {})
  | _ => s

def closeHandles (s : State) (pid : Pid) (gone : Fd × Handle → Bool) : State :=
  let files := ((s.handles pid).filter gone).map fun h =>
    (s.openFiles.getD h.2.openFile default).inode
  let s := s.modifyProcess pid fun p => { p with handles := p.handles.filter fun h => !gone h }
  files.foldl settleFifo s

def freeFrom (taken : List Fd) : Nat → Fd → Fd
  | 0, n => n
  | room + 1, n => if taken.contains n then freeFrom taken room (n + 1) else n

def lowestFree (s : State) (pid : Pid) : Fd :=
  let taken := (s.handles pid).map Prod.fst
  freeFrom taken taken.length 0

def putHandle (s : State) (pid : Pid) (fd : Fd) (h : Handle) : State :=
  let s := s.closeHandles pid fun e => e.1 = fd
  s.modifyProcess pid fun p => { p with handles := (fd, h) :: p.handles }

end State

inductive Halt
  | errno (e : Errno)
  | blocked

/-- What system calls are made of. The state stays as it is when a call fails. -/
abbrev Sys := ExceptT Halt (StateM State)

namespace Sys

def fail {α : Type} (e : Errno) : Sys α := throw (.errno e)

def require (condition : Bool) (e : Errno) : Sys Unit :=
  if condition then return () else fail e

def update (f : State → State) : Sys Unit := modifyThe State f

def ofExcept {α : Type} : Except Errno α → Sys α
  | .ok a => return a
  | .error e => fail e

end Sys

end OwnedHandles.Kernel
