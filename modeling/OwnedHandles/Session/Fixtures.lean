import OwnedHandles.Session.Basic

namespace OwnedHandles.Session

open Kernel

namespace Fixture

def refuse {α : Type} (e : Errno) : Work α :=
  Work.refuse ("fixture: " ++ e.toolWording ++ " (os error " ++ toString e.code ++ ")")

def need {α : Type} (c : Pid → Sys α) : Work α := do
  match ← Work.sys c with
  | .ok a => return a
  | .error e => refuse e

def writeAll (fd : Fd) : Nat → Bytes → Work Unit
  | _, [] => return ()
  | 0, _ => throw .stuck
  | rounds + 1, data => do
    let n ← need fun pid => Sys.write pid fd data
    writeAll fd rounds (data.drop n)

def putFile (path data : Bytes) (perm : Option Mode) : Work Unit := do
  let flags := OpenFlags.writeOnly ||| .create ||| .truncate ||| .closeOnExec
  let fd ← need fun pid => Sys.openFile pid path flags 0o666#12
  writeAll fd Work.rounds data
  need fun pid => Sys.close pid fd
  if let some mode := perm then
    let s ← Work.session
    match Walk.find s.kernel s.self true path with
    | .ok i => Work.update fun s =>
        { s with kernel := s.kernel.setMode i (s.kernel.granted s.self i mode) }
    | .error e => refuse e

def readAll (fd : Fd) : Nat → List Bytes → Work (Option Bytes)
  | 0, _ => return none
  | rounds + 1, chunks => do
    match ← Work.sys fun pid => Sys.read pid fd Image.readChunk with
    | .ok [] => return some chunks.reverse.flatten
    | .ok chunk => readAll fd rounds (chunk :: chunks)
    | .error _ => return none

def content (path : Bytes) : Work (Option Bytes) := do
  match ← Work.sys fun pid => Sys.openFile pid path OpenFlags.closeOnExec 0#12 with
  | .error _ => return none
  | .ok fd =>
    let bytes ← readAll fd Work.rounds []
    let _ ← Work.sys fun pid => Sys.close pid fd
    return bytes

def kindName : FileKind → String
  | .regular => "file"
  | .directory => "dir"
  | .fifo => "fifo"
  | .symlink => "symlink"
  | .device => "device"

def statReport (s : Session) (path : Bytes) : Report :=
  match Walk.find s.kernel s.self false path with
  | .error _ => .nothing
  | .ok i =>
    let n := s.kernel.inode i
    let size := match n.content with
      | .regular data _ => data.size
      | _ => 0
    .record [("type", .text (kindName n.content.kind)), ("mode", .text n.mode.octal),
      ("size", .number size)]

def names (s : Session) : List String :=
  match s.kernel.content s.directory with
  | .directory _ entries =>
    (entries.map fun e => Text.decodeLossy e.1).mergeSort fun a b => a ≤ b
  | _ => []

def withVariable (key value : Bytes) (environment : List Bytes) : List Bytes :=
  let front := key ++ [Ascii.equals]
  let entry := front ++ value
  if environment.any front.isPrefixOf then
    environment.map fun e => if front.isPrefixOf e then entry else e
  else environment ++ [entry]

def fileBytes (s : Session) (i : InodeId) : Report :=
  match s.kernel.content i with
  | .regular data _ => .bytes data.data.toList
  | _ => .bytes []

def modifySelf (f : Process → Process) : Work Unit :=
  Work.update fun s => { s with kernel := s.kernel.modifyProcess s.self f }

def run : Fixture → Work Report
  | put path data perm => do
    putFile path data perm
    return .nothing
  | cat path => return .optional .bytes (← content path)
  | makeDirectory path => do
    need fun pid => Sys.makeDirectory pid path 0o777#12
    return .nothing
  | makeSymlink path target => do
    need fun pid => Sys.makeSymlink pid path target
    return .nothing
  | setCreationMask mask => do
    modifySelf fun p => { p with creationMask := mask &&& 0o777#12 }
    return .nothing
  | stat path => return statReport (← Work.session) path
  | list => return .list ((names (← Work.session)).map .text)
  | setVariable key value => do
    modifySelf fun p => { p with environment := withVariable key value p.environment }
    return .nothing
  | inherited => do
    let s ← Work.session
    return .record [("stdout", fileBytes s s.outputFile), ("stderr", fileBytes s s.errorFile)]

end Fixture

end OwnedHandles.Session
