import OwnedHandles.Text.Ascii

namespace OwnedHandles.Shell

inductive PatternPart
  | exact (b : UInt8)
  | any
  | anyText
  | oneOf (negated : Bool) (ranges : List (UInt8 × UInt8))
  deriving DecidableEq, Repr

abbrev Pattern := List PatternPart

/-- A text whose bytes are marked as quoted or not. -/
abbrev Marked := List (UInt8 × Bool)

namespace Pattern

open Ascii

def inRanges (b : UInt8) (ranges : List (UInt8 × UInt8)) : Bool :=
  ranges.any fun r => r.1 ≤ b && b ≤ r.2

def classes : List (Bytes × List (UInt8 × UInt8)) :=
  [("alnum", [(0x30, 0x39), (0x41, 0x5a), (0x61, 0x7a)]), ("alpha", [(0x41, 0x5a), (0x61, 0x7a)]),
   ("blank", [(0x09, 0x09), (0x20, 0x20)]), ("cntrl", [(0x00, 0x1f), (0x7f, 0x7f)]),
   ("digit", [(0x30, 0x39)]), ("graph", [(0x21, 0x7e)]), ("lower", [(0x61, 0x7a)]),
   ("print", [(0x20, 0x7e)]), ("punct", [(0x21, 0x2f), (0x3a, 0x40), (0x5b, 0x60), (0x7b, 0x7e)]),
   ("space", [(0x09, 0x0d), (0x20, 0x20)]), ("upper", [(0x41, 0x5a)]),
   ("xdigit", [(0x30, 0x39), (0x41, 0x46), (0x61, 0x66)])].map fun p => (Bytes.ofString p.1, p.2)

def class? (m : Marked) : Option (List (UInt8 × UInt8) × Marked) := do
  let name := m.takeWhile fun b => b.1 ≠ colon
  match m.drop name.length with
  | (_, false) :: (closeBracket, false) :: rest =>
    return (← classes.lookup (name.map Prod.fst), rest)
  | _ => none

/-- The ranges of a bracket expression up to its end, `first` if none has been read yet. The fuel
is more than the length of the text. -/
def ranges : Nat → Bool → Marked → Option (List (UInt8 × UInt8) × Marked)
  | 0, _, _ => none
  | _ + 1, _, [] => none
  | fuel + 1, first, (a, quoted) :: rest =>
    let single := (ranges fuel false rest).map fun p => ((a, a) :: p.1, p.2)
    if a = closeBracket ∧ !quoted ∧ !first then some ([], rest)
    else match rest with
      | (minus, false) :: (b, q) :: more =>
        if b = closeBracket ∧ !q then some ([(a, a), (minus, minus)], more)
        else (ranges fuel false more).map fun p => ((a, b) :: p.1, p.2)
      | (colon, false) :: more =>
        if a = openBracket ∧ !quoted then
          match class? more with
          | some (members, more) => (ranges fuel false more).map fun p => (members ++ p.1, p.2)
          | none => single
        else single
      | _ => single

def bracket (m : Marked) : Option (PatternPart × Marked) :=
  match m with
  | (bang, false) :: rest => (ranges m.length true rest).map fun p => (.oneOf true p.1, p.2)
  | rest => (ranges (m.length + 1) true rest).map fun p => (.oneOf false p.1, p.2)

def read : Nat → Marked → Pattern
  | 0, _ => []
  | _ + 1, [] => []
  | fuel + 1, (b, quoted) :: rest =>
    if quoted then .exact b :: read fuel rest
    else if b = asterisk then .anyText :: read fuel rest
    else if b = question then .any :: read fuel rest
    else if b = openBracket then
      match bracket rest with
      | some (part, rest) => part :: read fuel rest
      | none => .exact b :: read fuel rest
    else .exact b :: read fuel rest

def ofMarked (m : Marked) : Pattern := read (m.length + 1) m

def isWild (p : Pattern) : Bool :=
  p.any fun part => match part with
    | .exact _ => false
    | _ => true

def suffixes : Bytes → List Bytes
  | [] => [[]]
  | b :: rest => (b :: rest) :: suffixes rest

def matchesAll : Pattern → Bytes → Bool
  | [], text => text.isEmpty
  | .anyText :: p, text => (suffixes text).any (matchesAll p)
  | _ :: _, [] => false
  | .exact a :: p, b :: text => a = b && matchesAll p text
  | .any :: p, _ :: text => matchesAll p text
  | .oneOf negated rs :: p, b :: text => inRanges b rs != negated && matchesAll p text

def matchingFronts (p : Pattern) (text : Bytes) : List Nat :=
  (List.range (text.length + 1)).filter fun n => matchesAll p (text.take n)

def dropFront (p : Pattern) (longest : Bool) (text : Bytes) : Bytes :=
  let ns := matchingFronts p text
  match if longest then ns.getLast? else ns.head? with
  | some n => text.drop n
  | none => text

def dropBack (p : Pattern) (longest : Bool) (text : Bytes) : Bytes :=
  let ns := (List.range (text.length + 1)).filter fun n => matchesAll p (text.drop n)
  match if longest then ns.head? else ns.getLast? with
  | some n => text.take n
  | none => text

end Pattern

end OwnedHandles.Shell
