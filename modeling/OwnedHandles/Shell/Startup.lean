import OwnedHandles.Shell.Evaluation

namespace OwnedHandles.Shell

open Kernel

inductive Source
  | commandText (text : Bytes)
  | file (path : Bytes)
  | standardInput

structure Invocation where
  source : Source
  name : Bytes
  positional : List Bytes
  options : Options := {}

inductive Refusal
  | missingText
  | strangeOption (letter : UInt8)
  deriving DecidableEq, Repr

def Refusal.message : Refusal → String
  | missingText => "-c requires an argument"
  | strangeOption letter => "Illegal option -" ++ Text.decodeLossy [letter]

namespace Invocation

/-- Where the script is asked for by letters, these letters are gone from the options. -/
structure Letters where
  options : Options := {}
  textFollows : Bool := false
  inputFollows : Bool := false

def Letters.add (l : Letters) (letter : UInt8) : Except Refusal Letters :=
  if letter = 0x63 then .ok { l with textFollows := true }
  else if letter = 0x73 then .ok { l with inputFollows := true }
  else match l.options.set true letter with
    | some options => .ok { l with options }
    | none => .error (.strangeOption letter)

def readOptions (l : Letters) : List Bytes → Except Refusal (Letters × List Bytes)
  | [] => .ok (l, [])
  | (Ascii.minus :: letters) :: rest =>
    if letters = [] ∨ letters = [Ascii.minus] then .ok (l, rest)
    else do readOptions (← letters.foldlM Letters.add l) rest
  | arguments => .ok (l, arguments)

def ofArguments (name : Bytes) (arguments : List Bytes) : Except Refusal Invocation := do
  let (l, rest) ← readOptions {} arguments
  match l.textFollows, l.inputFollows, rest with
  | true, _, [] => throw .missingText
  | true, _, text :: more => return ⟨.commandText text, more.head?.getD name, more.tail, l.options⟩
  | false, true, rest => return ⟨.standardInput, name, rest, l.options⟩
  | false, false, [] => return ⟨.standardInput, name, [], l.options⟩
  | false, false, path :: more => return ⟨.file path, path, more, l.options⟩

end Invocation

namespace Startup

def workingDirectory : Bytes := Bytes.ofString "PWD"

def parentNumber : Bytes := Bytes.ofString "PPID"

def frame (name : Bytes) (positional environment : List Bytes) (here : Bytes) (parent : Pid) :
    Frame :=
  let f := environment.foldl Frame.importEntry { name, positional }
  let f := f.unsetVariable (Bytes.ofString "IFS")
  let f := (f.setVariable workingDirectory here).exportVariable workingDirectory
  let f := f.setVariable parentNumber (Bytes.ofString (toString parent))
  f.setVariable (Bytes.ofString "OPTIND") [0x31]

def scriptText (shell : Bytes) : Source → Image Bytes
  | .commandText text => return text
  | .standardInput => do
    match ← Image.readAll 0 Image.rounds [] with
    | .ok text => return text
    | .error _ => return []
  | .file path => do
    match ← Image.sys fun pid => Sys.openFile pid path 0#32 0#12 with
    | .error e =>
      Image.warn (Text.decodeLossy shell ++ ": 0: cannot open " ++ Text.decodeLossy path ++ ": "
        ++ Evaluation.wordingFor false e)
      Image.exit 2
    | .ok fd =>
      let text ← Image.readAll fd Image.rounds []
      let _ ← Image.sys fun pid => Sys.close pid fd
      match text with
      | .ok text => return text
      | .error _ => Image.exit 2

def statusOf (f : Frame) : Stop → Except Ending Nat
  | .ending (.exited status) => .ok (status % 256)
  | .ending e => .error e
  | .leaveFunction status => .ok (status % 256)
  | .mistake => .ok 2
  | _ => .ok (f.status % 256)

def depth : Nat := Image.rounds

def run (launch : Launcher) (f : Frame) (text : Bytes) : Image Nat := do
  let inner : Evaluation.Inner := { eval := Evaluation.eval launch depth, launch }
  let whole := Evaluation.withLastScript inner (Evaluation.script inner text)
  let ((r, f), s) := (((whole.run).run f).run (← read)).run
    (← getThe State)
  set s
  match r with
  | .ok status => return status % 256
  | .error stop => liftExcept (statusOf f stop)
where
  liftExcept : Except Ending Nat → Image Nat
    | .ok status => return status
    | .error e => throw e

def main (launch : Launcher) (arguments environment : List Bytes) : Image Nat := do
  let name := arguments.head?.getD []
  match Invocation.ofArguments name arguments.tail with
  | .error refusal =>
    Image.warn (Text.decodeLossy name ++ ": 0: " ++ refusal.message)
    return 2
  | .ok i =>
    let text ← scriptText name i.source
    let s ← getThe State
    let self := s.process? (← read)
    let here := Walk.pathOf s ((self.map Process.directory).getD 0)
    let parent := (self.map Process.parent).getD 0
    run launch { frame i.name i.positional environment here parent with options := i.options } text

end Startup

end OwnedHandles.Shell
