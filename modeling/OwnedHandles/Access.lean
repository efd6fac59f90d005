namespace OwnedHandles

/-- Twelve permission bits: set-id and sticky bits, then read, write and execute for the owner,
the group and others. -/
abbrev Mode := BitVec 12

namespace Mode

def ownerRead (m : Mode) : Bool := m.getLsbD 8

def ownerWrite (m : Mode) : Bool := m.getLsbD 7

def ownerExecute (m : Mode) : Bool := m.getLsbD 6

def groupExecute (m : Mode) : Bool := m.getLsbD 3

def masked (m mask : Mode) : Mode := m &&& ~~~(mask &&& 0o777#12)

/-- The bit with which a program runs with the rights of its group, and a directory hands its group
on. -/
def setsGroup (m : Mode) : Bool := m.getLsbD 10

def withoutSetGroup (m : Mode) : Mode := m &&& ~~~0o2000#12

/-- A write takes the set-id bits away, so that new content never runs with old rights. On a file
that its group can not execute the group bit means something else: a member of the group leaves it
there. -/
def afterWrite (m : Mode) (member : Bool) : Mode :=
  let m := m &&& ~~~0o4000#12
  if m.groupExecute || !member then m.withoutSetGroup else m

def octalDigit (n : Nat) : Char := Char.ofNat (48 + n % 8)

def octal (m : Mode) : String :=
  let n := m.toNat
  String.ofList [octalDigit (n / 512), octalDigit (n / 64), octalDigit (n / 8), octalDigit n]

end Mode

abbrev OpenFlags := BitVec 32

namespace OpenFlags

def writeOnly : OpenFlags := 1#32

def readWrite : OpenFlags := 2#32

def create : OpenFlags := 0o100#32

def exclusive : OpenFlags := 0o200#32

def truncate : OpenFlags := 0o1000#32

def append : OpenFlags := 0o2000#32

def nonblock : OpenFlags := 0o4000#32

def direct : OpenFlags := 0o40000#32

def directory : OpenFlags := 0o200000#32

def noFollow : OpenFlags := 0o400000#32

def closeOnExec : OpenFlags := 0o2000000#32

def pathOnly : OpenFlags := 0o10000000#32

def temporary : OpenFlags := 0o20200000#32

def named : List (String × OpenFlags) :=
  [("O_RDONLY", 0#32), ("O_WRONLY", writeOnly), ("O_RDWR", readWrite), ("O_CREAT", create),
   ("O_EXCL", exclusive), ("O_NOCTTY", 0o400#32), ("O_TRUNC", truncate), ("O_APPEND", append),
   ("O_NONBLOCK", nonblock), ("O_NDELAY", nonblock), ("O_DSYNC", 0o10000#32),
   ("O_ASYNC", 0o20000#32), ("O_DIRECT", direct), ("O_LARGEFILE", 0#32),
   ("O_DIRECTORY", directory), ("O_NOFOLLOW", noFollow), ("O_NOATIME", 0o1000000#32),
   ("O_CLOEXEC", closeOnExec), ("O_SYNC", 0o4010000#32), ("O_RSYNC", 0o4010000#32),
   ("O_PATH", pathOnly), ("O_TMPFILE", temporary)]

def ofName? (s : String) : Option OpenFlags := (named.find? fun p => p.1 == s).map (·.2)

def has (f g : OpenFlags) : Bool := f &&& g = g

/-- Bits zero and one: read only, write only, both, or neither. -/
def accessMode (f : OpenFlags) : Nat := (f &&& 3#32).toNat

def canRead (f : OpenFlags) : Bool := f.accessMode = 0 || f.accessMode = 2

def canWrite (f : OpenFlags) : Bool := f.accessMode = 1 || f.accessMode = 2

/-- The flags for a pair of wishes. Whoever wants to write also wants a missing file made. -/
def forAccess (read write : Bool) : OpenFlags :=
  match read, write with
  | true, true => readWrite ||| create
  | true, false => 0#32
  | false, true => writeOnly ||| create
  | false, false => 0#32

end OpenFlags

end OwnedHandles
