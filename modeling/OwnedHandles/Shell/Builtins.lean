import OwnedHandles.Shell.Builtins.Input
import OwnedHandles.Shell.Builtins.Settings
import OwnedHandles.Shell.Builtins.Signals
import OwnedHandles.Shell.Condition
import OwnedHandles.Shell.Formatted

namespace OwnedHandles.Shell.Builtin

open Kernel

def withoutLineEnd : List Bytes → Bool × List Bytes
  | a :: rest => if a = Bytes.ofString "-n" then (true, rest) else (false, a :: rest)
  | [] => (false, [])

def echoLine (arguments : List Bytes) : Bytes :=
  let (bare, words) := withoutLineEnd arguments
  let (bs, stop) := Formatted.resolve (words.intersperse [Ascii.space]).flatten
  if bare || stop then bs else bs ++ [Ascii.lineFeed]

def echo (arguments : List Bytes) : Run Nat := output "echo" (echoLine arguments) 0

def complaint : Formatted.Complaint → String
  | .notNumeric a => Text.decodeLossy a ++ ": expected numeric value"
  | .incomplete a => Text.decodeLossy a ++ ": not completely converted"
  | .outOfRange a => Text.decodeLossy a ++ ": " ++ Errno.ERANGE.toolWording

def printf (arguments : List Bytes) : Run Nat := do
  match operands arguments with
  | [] => die "printf" "usage: printf format [arg ...]"
  | fmt :: rest =>
    let r := Formatted.format fmt rest
    for c in r.complaints do
      say "printf" (complaint c)
    let status ← output "printf" r.output (if r.complaints.isEmpty then 0 else 1)
    match r.mistake with
    | none => return status
    | some .missingLetter => die "printf" "missing format character"
    | some (.unknown d) => die "printf" (Text.decodeLossy d ++ ": invalid directive")

def condition (command : String) (arguments : List Bytes) : Run Nat := do
  match Condition.holds (← getThe State) (← read) arguments with
  | .ok true => return 0
  | .ok false => return 1
  | .error e =>
    say command e
    return 2

def bracket (arguments : List Bytes) : Run Nat := do
  if arguments.getLast? = some (Bytes.ofString "]") then condition "[" arguments.dropLast
  else
    say "[" "missing ]"
    return 2

def isSpecial (name : String) : Bool := Parsing.reserved.contains name

def runners : List String := [".", "command", "eval", "exec", "type"]

def ofName? (name : String) : Option (List Bytes → Run Nat) :=
  match name with
  | ":" | "true" => some fun _ => return 0
  | "false" => some fun _ => return 1
  | "echo" => some echo
  | "printf" => some printf
  | "test" => some (condition "test")
  | "[" => some bracket
  | "read" => some readVariables
  | "kill" => some kill
  | "cd" => some changeDirectory
  | "pwd" => some fun _ => printDirectory
  | "umask" => some creationMask
  | "export" => some exportAll
  | "readonly" => some fixAll
  | "local" => some makeOwn
  | "unset" => some unset
  | "shift" => some shift
  | "set" => some setFrame
  | "trap" => some trap
  | "wait" => some wait
  | "hash" => some fun _ => return 0
  | "exit" => some fun as => do Run.exit (← statusArgument "exit" as)
  | "return" => some fun as => do throw (.leaveFunction (← statusArgument "return" as))
  | "break" => some fun as => do
    match ← levelArgument "break" as with
    | 0 => return 0
    | n => throw (.leaveLoop n)
  | "continue" => some fun as => do
    match ← levelArgument "continue" as with
    | 0 => return 0
    | n => throw (.nextRound n)
  | _ => none

def isBuiltin (name : String) : Bool := runners.contains name || (ofName? name).isSome

end OwnedHandles.Shell.Builtin
