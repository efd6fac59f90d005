import OwnedHandles.Text.Ascii

namespace OwnedHandles.Shell

inductive Alternative
  | useDefault
  /-- The word in its place, which it also becomes. -/
  | assign
  | replace
  | complain
  | dropFront (longest : Bool)
  | dropBack (longest : Bool)
  deriving DecidableEq, Repr

def Alternative.isPattern : Alternative → Bool
  | dropFront _ | dropBack _ => true
  | _ => false

inductive Piece
  | plain (text : Bytes)
  | quoted (text : Bytes)
  | parameter (name : Bytes) (inQuotes : Bool)
  | length (name : Bytes) (inQuotes : Bool)
  /-- With `orEmpty`, an empty value counts as none. -/
  | alternative (name : Bytes) (inQuotes : Bool) (kind : Alternative) (orEmpty : Bool)
      (word : List Piece)
  | output (source : Bytes) (inQuotes : Bool)
  | arithmetic (expression : List Piece) (inQuotes : Bool)
  | strange
  deriving Repr, Inhabited

abbrev Word := List Piece

inductive RedirectKind
  | input | output | append | both | copy | here
  deriving DecidableEq, Repr

/-- The target is a name, a number or, for text that follows in the script, the text. -/
structure Redirect where
  handle : Nat
  kind : RedirectKind
  target : Word
  deriving Repr

inductive Command
  | empty
  | simple (line : Nat) (assignments : List (Bytes × Word)) (words : List Word)
      (redirects : List Redirect)
  | pipeline (negated : Bool) (parts : List Command)
  | both (first second : Command)
  | either (first second : Command)
  | sequence (first second : Command)
  | background (c : Command)
  | subshell (c : Command)
  | choose (condition yes no : Command)
  | loop (untilHolds : Bool) (condition body : Command)
  | forEach (line : Nat) (name : Bytes) (words : Option (List Word)) (body : Command)
  | caseOf (line : Nat) (subject : Word) (arms : List (List Word × Command))
  | define (name : Bytes) (body : Command)
  | redirected (line : Nat) (c : Command) (redirects : List Redirect)
  deriving Repr, Inhabited

end OwnedHandles.Shell
