import OwnedHandles.Shell.Grammar
import OwnedHandles.Shell.Pattern
import OwnedHandles.Kernel.Image

namespace OwnedHandles.Shell

open Kernel

structure Variable where
  value : Option Bytes := none
  exported : Bool := false
  fixed : Bool := false
  deriving DecidableEq, Repr

structure Options where
  exitOnFailure : Bool := false
  plainNames : Bool := false
  needSet : Bool := false
  trace : Bool := false
  deriving DecidableEq, Repr

namespace Options

def letters (o : Options) : Bytes :=
  Bytes.ofString ((if o.exitOnFailure then "e" else "") ++ (if o.plainNames then "f" else "")
    ++ (if o.trace then "x" else "") ++ (if o.needSet then "u" else ""))

/-- Turns an option on or off; `none` for a letter that is none. Some letters change nothing that
a script could see. -/
def set (o : Options) (on : Bool) (letter : UInt8) : Option Options :=
  match Char.ofNat letter.toNat with
  | 'e' => some { o with exitOnFailure := on }
  | 'f' => some { o with plainNames := on }
  | 'u' => some { o with needSet := on }
  | 'x' => some { o with trace := on }
  | 'I' | 'i' | 'm' | 'n' | 's' | 'v' | 'V' | 'E' | 'C' | 'a' | 'b' => some o
  | _ => none

def letter? (name : Bytes) : Option UInt8 :=
  match Text.decodeLossy name with
  | "errexit" => some 0x65
  | "noglob" => some 0x66
  | "nounset" => some 0x75
  | "xtrace" => some 0x78
  | "ignoreeof" => some 0x49
  | "interactive" => some 0x69
  | "monitor" => some 0x6d
  | "noexec" => some 0x6e
  | "stdin" => some 0x73
  | "verbose" => some 0x76
  | "vi" => some 0x56
  | "emacs" => some 0x45
  | "noclobber" => some 0x43
  | "allexport" => some 0x61
  | "notify" => some 0x62
  | _ => none

end Options

structure Frame where
  name : Bytes
  source : Option String := none
  positional : List Bytes := []
  bindings : List (Bytes × Variable) := []
  functions : List (Bytes × Command) := []
  status : Nat := 0
  outputStatus : Nat := 0
  loops : Nat := 0
  line : Nat := 0
  options : Options := {}
  /-- The status of the command at hand decides something, so that it may fail. -/
  tested : Bool := false
  /-- Scripts to run when a signal comes or, under zero, at the end. -/
  traps : List (Nat × Bytes) := []
  due : List Nat := []
  /-- What the variables were that the function at hand has made its own; `none` outside of
  functions. -/
  own : Option (List (Bytes × Option Variable)) := none
  jobs : List (Pid × Nat) := []

inductive Stop
  | ending (e : Ending)
  | leaveLoop (levels : Nat)
  | nextRound (levels : Nat)
  | leaveFunction (status : Nat)
  | mistake

abbrev Run := ExceptT Stop (StateT Frame (ReaderT Pid (StateM State)))

namespace Run

def lift {α : Type} (i : Image α) : Run α := do
  let (r, s) := (i.run (← read)).run (← getThe State)
  set s
  match r with
  | .ok a => return a
  | .error e => throw (.ending e)

def sys {α : Type} (c : Pid → Sys α) : Run (Except Errno α) := lift (Image.sys c)

def exit {α : Type} (status : Nat) : Run α := throw (.ending (.exited status))

def complain (text : String) : Run Unit := do
  let f ← get
  lift (Image.warn (Text.decodeLossy f.name ++ ": " ++ toString f.line ++ ": " ++ text))

def say (text : String) : Run Unit := do
  match (← get).source with
  | some source => complain (source ++ ": " ++ text)
  | none => complain text

/-- Tells a mistake, which ends the shell unless a command of its own has made it. -/
def die {α : Type} (text : String) : Run α := do
  say text
  throw .mistake

end Run

namespace Frame

def valueOf? (f : Frame) (name : Bytes) : Option Bytes :=
  (f.bindings.lookup name).bind Variable.value

def isFixed (f : Frame) (name : Bytes) : Bool :=
  ((f.bindings.lookup name).map Variable.fixed).getD false

def modifyVariable (f : Frame) (name : Bytes) (change : Variable → Variable) : Frame :=
  if (f.bindings.lookup name).isSome then
    { f with bindings := f.bindings.map fun v => if v.1 = name then (name, change v.2) else v }
  else { f with bindings := f.bindings ++ [(name, change {})] }

def setVariable (f : Frame) (name value : Bytes) : Frame :=
  f.modifyVariable name fun v => { v with value := some value }

def exportVariable (f : Frame) (name : Bytes) : Frame :=
  f.modifyVariable name fun v => { v with exported := true }

def fixVariable (f : Frame) (name : Bytes) : Frame :=
  f.modifyVariable name fun v => { v with fixed := true }

def restoreVariable (f : Frame) (name : Bytes) (before : Option Variable) : Frame :=
  match before with
  | some v => f.modifyVariable name fun _ => v
  | none => { f with bindings := f.bindings.filter fun v => v.1 ≠ name }

def unsetVariable (f : Frame) (name : Bytes) : Frame :=
  { f with bindings := f.bindings.filter fun v => v.1 ≠ name }

def splitEntry (entry : Bytes) : Bytes × Bytes :=
  let name := entry.takeWhile fun b => b ≠ Ascii.equals
  (name, entry.drop (name.length + 1))

def importEntry (f : Frame) (entry : Bytes) : Frame :=
  let (name, value) := splitEntry entry
  if Ascii.isName name then (f.setVariable name value).exportVariable name else f

def buckets : Nat := 39

/-- Variables are handed on by bucket, within a bucket in the order of their setting. -/
def bucket (name : Bytes) : Nat :=
  let first := (name.head?.map (·.toNat)).getD 0
  (name.foldl (fun n b => n + b.toNat) (16 * first)) % buckets

def environment (f : Frame) : List Bytes :=
  (List.range buckets).flatMap fun n =>
    (f.bindings.filter fun v => v.2.exported && bucket v.1 = n).filterMap fun v =>
      v.2.value.map fun value => v.1 ++ Ascii.equals :: value

def separators (f : Frame) : Bytes :=
  (f.valueOf? (Bytes.ofString "IFS")).getD [Ascii.space, Ascii.tab, Ascii.lineFeed]

end Frame

namespace Run

/-- Gives a variable a value, which a fixed one does not take; a complaint starts with `front`. -/
def assign (front : String) (name value : Bytes) : Run Unit := do
  if (← get).isFixed name then die (front ++ Text.decodeLossy name ++ ": is read only")
  modify fun f => f.setVariable name value

end Run

end OwnedHandles.Shell
