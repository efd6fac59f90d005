import OwnedHandles.Session.Basic

namespace OwnedHandles.Session

open Kernel

namespace Surroundings

def directoryMode : Mode := 0o755#12

def deviceMode : Mode := 0o666#12

def addDirectory (k : State) (parent : InodeId) (name : String) : State × InodeId :=
  k.addNamed parent (Bytes.ofString name) { content := .directory parent [], mode := directoryMode }

def addFile (k : State) (parent : InodeId) (name : String) (c : Content) (mode : Mode) : State :=
  (k.addNamed parent (Bytes.ofString name) { content := c, mode }).1

def tools : List (String × Tool) :=
  [("cat", .cat), ("dash", .shell), ("echo", .echo), ("env", .env), ("false", .failure),
   ("printf", .printf), ("sh", .shell), ("sleep", .sleep), ("true", .success)]

def devices : List (String × Device) := [("full", .full), ("null", .null), ("zero", .zero)]

def tree : State :=
  let k : State := { inodes := #[{ content := .directory 0 [], mode := directoryMode }] }
  let (k, usr) := addDirectory k 0 "usr"
  let (k, bin) := addDirectory k usr "bin"
  let k := tools.foldl (fun k t => addFile k bin t.1 (.tool t.2) directoryMode) k
  let k := addFile k 0 "bin" (.symlink (Bytes.ofString "usr/bin")) 0o777#12
  let (k, dev) := addDirectory k 0 "dev"
  let k := devices.foldl (fun k d => addFile k dev d.1 (.device d.2) deviceMode) k
  let (k, proc) := addDirectory k 0 "proc"
  let (k, self) := addDirectory k proc "self"
  let k := addFile k self "status" .ownStatus 0o444#12
  addFile k self "oom_score_adj" .ownAdjustment 0o644#12

def firstPid : Pid := 3900000

def environment : List Bytes := ["LC_ALL=C", "PATH=/usr/bin:/bin"].map Bytes.ofString

def dispositions : Dispositions :=
  Dispositions.set (fun _ => .byDefault) Signal.SIGPIPE.number .ignored

def ancestor : Process := { pid := 1, parent := 0 }

def settle (k : State) (top directory out err : InodeId) (entries : List Bytes) : Session :=
  let entered := if (k.inode directory).mode.ownerExecute then directory else top
  let self : Process :=
    { pid := firstPid, parent := ancestor.pid, directory := entered, dispositions
      environment := environment ++ entries }
  let k := { k with
    processes := [ancestor, self], nextPid := firstPid + 1, mappings := []
    openFiles := #[] }
  let openOn (k : State) (fd : Fd) (i : InodeId) (flags : OpenFlags) : State :=
    let (k, id) := k.addOpenFile { inode := i, flags }
    k.putHandle firstPid fd ⟨id, false⟩
  let null := ((Walk.find k firstPid true (Bytes.ofString "/dev/null")).toOption).getD 0
  let appending := OpenFlags.writeOnly ||| .append
  let k := (k.setContent out (.ofBytes [])).setContent err (.ofBytes [])
  let k := openOn (openOn (openOn k 0 null 0#32) 1 out appending) 2 err appending
  { kernel := k, self := firstPid, top, directory := entered, outputFile := out, errorFile := err }

def workName : Bytes := Bytes.ofString "w"

def sink : Inode := { content := .ofBytes [], mode := 0o644#12 }

def begin (entries : List Bytes) : Session :=
  let (k, tmp) := addDirectory tree 0 "tmp"
  let (k, top) := addDirectory k tmp "session"
  let (k, directory) := addDirectory k top "w"
  let (k, out) := k.addNamed top (Bytes.ofString "out") sink
  let (k, err) := k.addNamed top (Bytes.ofString "err") sink
  settle k top directory out err entries

def entriesOf (k : State) (i : InodeId) : List (Bytes × InodeId) :=
  match k.content i with
  | .directory _ entries => entries
  | _ => []

def isRemovable (k : State) (i : InodeId) : Bool :=
  !k.isDirectory i || ((entriesOf k i).isEmpty && (k.inode i).mode.ownerRead)

def clear : Nat → State → InodeId → State
  | 0, k, _ => k
  | depth + 1, k, i =>
    if (k.inode i).mode.ownerRead then
      (entriesOf k i).foldl (fun k e =>
        let k := if k.isDirectory e.2 then clear depth k e.2 else k
        if Walk.mayChange k i && isRemovable k e.2 then
          (k.setContent e.2 (.ofBytes [])).unlink i e.1
        else k) k
    else k

def workDirectory (k : State) (top : InodeId) (mask : Mode) : State × InodeId :=
  match (entriesOf k top).lookup workName with
  | some i => (k, i)
  | none =>
    k.addNamed top workName
      { content := .directory top [], mode := Mode.masked 0o777#12 mask }

/-- A session that goes on where another one has ended. The work directory is removed and made
again; where it can not be entered, the session works in the directory above. -/
def again (s : Session) (entries : List Bytes) : Session :=
  let mask := ((s.kernel.process? s.self).map Process.creationMask).getD 0o022#12
  let k := s.kernel.closeHandles s.self fun _ => true
  let k := match (entriesOf k s.top).lookup workName with
    | none => k
    | some i =>
      let k := clear k.inodes.size k i
      if isRemovable k i then k.unlink s.top workName else k
  let (k, directory) := workDirectory k s.top mask
  settle k s.top directory s.outputFile s.errorFile entries

end Surroundings

end OwnedHandles.Session
