import OwnedHandles.Shell.Frame

namespace OwnedHandles.Shell.Builtin

open Kernel

def say (command text : String) : Run Unit := Run.complain (command ++ ": " ++ text)

def die {α : Type} (command text : String) : Run α := do
  say command text
  throw .mistake

def output (command : String) (bs : Bytes) (status : Nat) : Run Nat := do
  if bs = [] then return status
  if ← Run.lift (Image.put 1 bs) then return status
  say command (command ++ ": I/O error")
  return 1

def numberLimit : Int := 0x80000000

def number (command : String) (a : Bytes) : Run Nat := do
  match (Ascii.int? a).filter fun n => 0 ≤ n ∧ n < numberLimit with
  | some n => return n.toNat
  | none => die command ("Illegal number: " ++ Text.decodeLossy a)

def statusArgument (command : String) (arguments : List Bytes) : Run Nat := do
  match arguments with
  | [] => return (← get).status
  | a :: _ => number command a

def countArgument (command : String) (arguments : List Bytes) : Run Nat := do
  match arguments with
  | [] => return 1
  | a :: _ => number command a

def levelArgument (command : String) (arguments : List Bytes) : Run Nat := do
  let n ← countArgument command arguments
  if n = 0 then die command ("Illegal number: " ++ Text.decodeLossy (arguments.head?.getD []))
  return min n (← get).loops

def operands (arguments : List Bytes) : List Bytes :=
  if arguments.head? = some (Bytes.ofString "--") then arguments.tail else arguments

def inQuotes (bs : Bytes) : Bytes :=
  let escaped := bs.flatMap fun b =>
    if b = Ascii.singleQuote then Bytes.ofString "'\"'\"'" else [b]
  Ascii.singleQuote :: escaped ++ [Ascii.singleQuote]

def badName {α : Type} (command : String) (name : Bytes) : Run α :=
  die command (Text.decodeLossy name ++ ": bad variable name")

end OwnedHandles.Shell.Builtin
