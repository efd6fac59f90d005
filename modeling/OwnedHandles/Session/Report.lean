import OwnedHandles.Event
import OwnedHandles.Failure
import OwnedHandles.Text.Bytes

namespace OwnedHandles.Session

inductive Report
  | nothing
  | truth (b : Bool)
  | number (n : Int)
  | text (s : String)
  | bytes (bs : Bytes)
  | list (rs : List Report)
  | record (fields : List (String × Report))
  deriving Repr, Inhabited

namespace Report

def optional {α : Type} (f : α → Report) : Option α → Report
  | some a => f a
  | none => nothing

end Report

inductive Trouble
  | failure (f : Failure)
  | failureAfter (f : Failure) (repetitions : Nat)
  | broken (message : String)
  | refused (message : String)
  | stuck
  | ended
  deriving Repr

structure Answered where
  result : Except Trouble Report
  events : List Event

def Answered.isEnd (a : Answered) : Bool :=
  match a.result with
  | .error .ended => true
  | _ => false

namespace Masking

def announcement : List Char := "pid: ".toList

def child : List Char := "<child>".toList

def digitsToNat (ds : List Char) : Nat := ds.foldl (fun n c => 10 * n + (c.toNat - 48)) 0

def hide (isChild : Nat → Bool) : Nat → List Char → List Char
  | 0, cs => cs
  | _ + 1, [] => []
  | fuel + 1, c :: rest =>
    if announcement.isPrefixOf (c :: rest) then
      let behind := (c :: rest).drop announcement.length
      let digits := behind.takeWhile Char.isDigit
      let shown := if digits ≠ [] ∧ isChild (digitsToNat digits) then child else digits
      announcement ++ shown ++ hide isChild fuel (behind.drop digits.length)
    else c :: hide isChild fuel rest

def text (isChild : Nat → Bool) (s : String) : String :=
  let cs := s.toList
  String.ofList (hide isChild (cs.length + 1) cs)

def failure (isChild : Nat → Bool) : Failure → Failure
  | .openFailed n e => .openFailed (text isChild n) e
  | .callFailed call context e => .callFailed call (text isChild context) e
  | .executionFailed command status stderr =>
    .executionFailed (text isChild command) status (text isChild stderr)
  | f => f

def field (isChild : Nat → Bool) : FieldValue → FieldValue
  | .text s => .text (text isChild s)
  | v => v

def event (isChild : Nat → Bool) (e : Event) : Event :=
  { e with fields := e.fields.map fun f => (f.1, field isChild f.2) }

mutual

def report (isChild : Nat → Bool) : Report → Report
  | .text s => .text (text isChild s)
  | .list rs => .list (reports isChild rs)
  | .record fields => .record (records isChild fields)
  | r => r

def reports (isChild : Nat → Bool) : List Report → List Report
  | [] => []
  | r :: rs => report isChild r :: reports isChild rs

def records (isChild : Nat → Bool) : List (String × Report) → List (String × Report)
  | [] => []
  | (name, r) :: rest => (name, report isChild r) :: records isChild rest

end

def trouble (isChild : Nat → Bool) : Trouble → Trouble
  | .failure f => .failure (failure isChild f)
  | .failureAfter f n => .failureAfter (failure isChild f) n
  | t => t

def answered (isChild : Nat → Bool) (a : Answered) : Answered where
  result := match a.result with
    | .ok r => .ok (report isChild r)
    | .error t => .error (trouble isChild t)
  events := a.events.map (event isChild)

end Masking

end OwnedHandles.Session
