import OwnedHandles.File
import OwnedHandles.Kernel.State

namespace OwnedHandles.Kernel

/-- Where a path leads: an entry of a directory, which may be missing, or a directory that was
reached without naming an entry. -/
structure Place where
  directory : InodeId
  name : Option Bytes
  inode : Option InodeId
  /-- The path goes on with a slash behind the last name. -/
  slashed : Bool

namespace Walk

def pathLimit : Nat := 4096

def nameLimit : Nat := 255

def linkLimit : Nat := 40

def steps (path : Bytes) : List Bytes := (Route.split path).filter fun step => step ≠ []

def endsWithSlash (path : Bytes) : Bool := path.getLast? = some Route.slash

def start (directory : InodeId) (path : Bytes) : InodeId :=
  if path.head? = some Route.slash then 0 else directory

def search (s : State) (i : InodeId) : Except Errno (InodeId × List (Bytes × InodeId)) :=
  match s.inode i with
  | { content := .directory parent entries, mode, group := _ } =>
    if mode.ownerExecute then .ok (parent, entries) else .error .EACCES
  | _ => .error .ENOTDIR

/-- Follows the steps from a directory, over at most `links` links. A link that ends the path is
followed only if `follow` or a slash behind it says so. -/
def go (s : State) (follow : Bool) (links : Nat) (directory : InodeId) (slashed : Bool) :
    List Bytes → Except Errno Place
  | [] => .ok ⟨directory, none, some directory, slashed⟩
  | step :: rest => do
    let (parent, entries) ← search s directory
    if step = Route.dot then go s follow links directory slashed rest
    else if step = Route.dotdot then go s follow links parent slashed rest
    else if nameLimit < step.length then .error .ENAMETOOLONG
    else match entries.lookup step with
      | none => if rest = [] then .ok ⟨directory, some step, none, slashed⟩ else .error .ENOENT
      | some i =>
        match s.content i, links with
        | .symlink target, links =>
          if rest = [] ∧ !follow ∧ !slashed then .ok ⟨directory, some step, some i, slashed⟩
          else match links with
            | 0 => .error .ELOOP
            | links + 1 =>
              go s follow links (start directory target)
                (slashed || (rest = [] && endsWithSlash target)) (steps target ++ rest)
        | _, links =>
          if rest = [] then .ok ⟨directory, some step, some i, slashed⟩
          else go s follow links i slashed rest
  termination_by rest => (links, rest.length)
  decreasing_by
    all_goals first
      | exact Prod.Lex.left _ _ (by omega)
      | exact Prod.Lex.right _ (by simp)

def check (path : Bytes) : Except Errno Unit :=
  if path.contains 0 then .error .EINVAL
  else if path = [] then .error .ENOENT
  else if pathLimit ≤ path.length then .error .ENAMETOOLONG
  else .ok ()

def place (s : State) (pid : Pid) (follow : Bool) (path : Bytes) : Except Errno Place := do
  check path
  let directory := ((s.process? pid).map Process.directory).getD 0
  go s follow linkLimit (start directory path) (endsWithSlash path) (steps path)

/-- The entry that a path names, with a link that ends it not followed, slash or not. -/
def entry (s : State) (pid : Pid) (path : Bytes) : Except Errno Place := do
  check path
  let directory := ((s.process? pid).map Process.directory).getD 0
  let p ← go s false linkLimit (start directory path) false (steps path)
  return { p with slashed := endsWithSlash path }

/-- The file that is there. Behind a slash only a directory will do. -/
def existing (s : State) (p : Place) : Except Errno InodeId :=
  match p.inode with
  | none => .error .ENOENT
  | some i => if p.slashed ∧ !s.isDirectory i then .error .ENOTDIR else .ok i

def find (s : State) (pid : Pid) (follow : Bool) (path : Bytes) : Except Errno InodeId := do
  existing s (← place s pid follow path)

def stepsTo (s : State) : Nat → InodeId → List Bytes
  | 0, _ => []
  | fuel + 1, i =>
    match s.content i with
    | .directory parent _ =>
      if parent = i then []
      else match s.content parent with
        | .directory _ entries =>
          let name := (entries.find? fun e => e.2 = i).map Prod.fst
          stepsTo s fuel parent ++ name.toList
        | _ => []
    | _ => []

def pathOf (s : State) (i : InodeId) : Bytes :=
  match stepsTo s s.inodes.size i with
  | [] => [Route.slash]
  | names => names.flatMap fun n => Route.slash :: n

def mayChange (s : State) (directory : InodeId) : Bool :=
  let mode := (s.inode directory).mode
  mode.ownerWrite && mode.ownerExecute

end Walk

end OwnedHandles.Kernel
