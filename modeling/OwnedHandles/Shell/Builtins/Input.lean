import OwnedHandles.Shell.Builtins.Basic
import OwnedHandles.Shell.Pattern

namespace OwnedHandles.Shell.Builtin

open Kernel

def readByte : Run (Option UInt8) := do
  match ← Run.sys fun pid => Sys.read pid 0 1 with
  | .ok (b :: _) => return some b
  | _ => return none

/-- A line, and whether it has an end. A backslash quotes what follows it, unless `raw`. -/
def readLine (raw : Bool) : Nat → Marked → Run (Marked × Bool)
  | 0, acc => return (acc.reverse, false)
  | rounds + 1, acc => do
    match ← readByte with
    | none => return (acc.reverse, false)
    | some b =>
      if b = Ascii.lineFeed then return (acc.reverse, true)
      else if b = Ascii.backslash ∧ !raw then
        match ← readByte with
        | none => return (acc.reverse, false)
        | some c =>
          if c = Ascii.lineFeed then readLine raw rounds acc
          else readLine raw rounds ((c, true) :: acc)
      else if b = 0 then readLine raw rounds acc
      else readLine raw rounds ((b, false) :: acc)

def isSeparator (separators : Bytes) (c : UInt8 × Bool) : Bool := !c.2 && separators.contains c.1

def isBlankSeparator (separators : Bytes) (c : UInt8 × Bool) : Bool :=
  isSeparator separators c && (Ascii.isBlank c.1 || c.1 = Ascii.lineFeed)

def skipSeparator (separators : Bytes) (m : Marked) : Marked :=
  let m := m.dropWhile (isBlankSeparator separators)
  match m with
  | c :: rest =>
    if isSeparator separators c then rest.dropWhile (isBlankSeparator separators) else m
  | [] => []

def share (separators : Bytes) : Nat → Marked → List Bytes
  | 0, _ => []
  | 1, m =>
    let back := m.reverse.dropWhile (isBlankSeparator separators)
    [back.reverse.map Prod.fst]
  | count + 2, m =>
    let field := m.takeWhile fun c => !isSeparator separators c
    field.map Prod.fst ::
      share separators (count + 1) (skipSeparator separators (m.drop field.length))

def setAll : List (Bytes × Bytes) → Run Unit
  | [] => return ()
  | (name, value) :: rest => do
    if !Ascii.isName name then badName "read" name
    Run.assign "read: " name value
    setAll rest

def readVariables (arguments : List Bytes) : Run Nat := do
  let raw := arguments.head? = some (Bytes.ofString "-r")
  let names := if raw then arguments.tail else arguments
  if names.isEmpty then die "read" "arg count"
  let (line, ended) ← readLine raw Image.rounds []
  let separators := (← get).separators
  let line := line.dropWhile (isBlankSeparator separators)
  setAll (names.zip (share separators names.length line))
  return if ended then 0 else 1

end OwnedHandles.Shell.Builtin
