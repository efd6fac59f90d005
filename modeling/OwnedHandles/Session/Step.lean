import OwnedHandles.Arguments
import OwnedHandles.FifoConnection
import OwnedHandles.Signal
import OwnedHandles.WaitStatus

namespace OwnedHandles.Session

abbrev HandleName := String

inductive Fixture
  | put (path data : Bytes) (perm : Option Mode)
  | cat (path : Bytes)
  | makeDirectory (path : Bytes)
  | makeSymlink (path target : Bytes)
  | setCreationMask (mask : Mode)
  | stat (path : Bytes)
  | list
  | setVariable (key value : Bytes)
  | inherited
  deriving Repr

inductive FileStep
  | info (path : Bytes)
  | makeFifo (path : Bytes) (perm : Mode)
  | remove (path : Bytes)
  deriving Repr

inductive DescriptorStep
  | openFile (path : Bytes) (flags : OpenFlags) (perm : Mode)
  | read (count : Nat)
  | readToEnd
  | write (data : Bytes)
  | writeAll (data : Bytes)
  | close
  | closeSafe
  | release
  | letGo
  | closeOnExec
  | drop
  | closeBehind
  | state
  deriving Repr

inductive FifoStep
  | new (path : Bytes)
  | make (perm : Mode)
  | openFile (direction : FifoConnection.Direction) (block : Bool)
  | close
  | send (message : Bytes) (times : Nat)
  | read
  | sendMessage (message : Bytes)
  | readMessage
  | drop
  | closeBehind
  | state
  deriving Repr

inductive MapStep
  | new (path : Bytes) (size offset : Nat) (readable writable : Bool) (perm : Mode)
  | map
  | unmap
  | zero
  | release
  | letGo
  | drop
  | closeBehind
  | state
  | read (start count : Nat)
  | write (start : Nat) (data : Bytes)
  deriving Repr

structure Launch where
  program : Bytes
  params : List Bytes
  env : Option (List (Bytes × Bytes))
  deriving Repr

inductive ProcessStep
  | start (launch : Launch)
  | startAndForget (program : Bytes) (params : List Bytes)
  | redirect (launch : Launch) (input output error : Bytes) (perm : Mode)
  | ofPid (pid : Pid) (name : Option String)
  | current
  | join (strict : Bool)
  | isThere
  | terminate
  | signal (s : Signal)
  | state
  | equal (other : HandleName)
  deriving Repr

inductive Task
  | fixture (f : Fixture)
  | file (f : FileStep)
  | descriptor (name : HandleName) (d : DescriptorStep)
  | fifo (name : HandleName) (f : FifoStep)
  | map (name : HandleName) (m : MapStep)
  | process (name : HandleName) (p : ProcessStep)
  | system (command : Bytes)
  | capture (launch : Launch)
  | exec (launch : Launch)
  deriving Repr

structure Step where
  task : Task
  newHandles : Option Nat := none
  closedHandles : List Fd := []
  deriving Repr

end OwnedHandles.Session
