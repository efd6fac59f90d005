import OwnedHandles.Text.Ascii

namespace OwnedHandles.Shell.Formatted

open Ascii

def simpleEscape? (b : UInt8) : Option UInt8 :=
  if b = backslash then some backslash
  else if b = 0x61 then some 0x07
  else if b = 0x62 then some 0x08
  else if b = 0x65 then some 0x1b
  else if b = 0x66 then some 0x0c
  else if b = 0x6e then some lineFeed
  else if b = 0x72 then some 0x0d
  else if b = 0x74 then some tab
  else if b = 0x76 then some 0x0b
  else none

def octalValue (ds : Bytes) : UInt8 :=
  ds.foldl (fun n d => 8 * n + (d - 48)) 0

def octal (n : Nat) (bs : Bytes) : Bytes := (bs.take n).takeWhile isOctalDigit

def formatEscape (bs : Bytes) : Bytes × Bytes :=
  match bs with
  | [] => ([backslash], [])
  | b :: rest =>
    let ds := octal 3 bs
    if ds ≠ [] then ([octalValue ds], bs.drop ds.length)
    else match simpleEscape? b with
      | some c => ([c], rest)
      | none => ([backslash, b], rest)

/-- A text with its escapes resolved, and whether one of them ends all output. Behind a zero
octal numbers have up to three more digits. -/
def escapes : Nat → Bytes → Bytes × Bool
  | 0, bs => (bs, false)
  | _ + 1, [] => ([], false)
  | fuel + 1, b :: rest =>
    let more (front rest : Bytes) :=
      let (bs, stop) := escapes fuel rest
      (front ++ bs, stop)
    if b ≠ backslash then more [b] rest
    else match rest with
      | [] => ([backslash], false)
      | c :: rest =>
        if c = 0x63 then ([], true)
        else if c = zero then
          let ds := octal 3 rest
          more [octalValue ds] (rest.drop ds.length)
        else
          let (bs, rest) := formatEscape (c :: rest)
          more bs rest

def resolve (bs : Bytes) : Bytes × Bool := escapes (bs.length + 1) bs

structure Conversion where
  leftAligned : Bool := false
  signed : Bool := false
  spaced : Bool := false
  zeroFilled : Bool := false
  alternate : Bool := false
  width : Nat := 0
  precision : Option Nat := none
  deriving Repr

namespace Conversion

def flags (c : Conversion) : Bytes → Conversion × Bytes
  | minus :: rest => flags { c with leftAligned := true } rest
  | plus :: rest => flags { c with signed := true } rest
  | space :: rest => flags { c with spaced := true } rest
  | zero :: rest => flags { c with zeroFilled := true } rest
  | hashSign :: rest => flags { c with alternate := true } rest
  | bs => (c, bs)

def fill (c : Conversion) (text : Bytes) : Bytes :=
  let missing := c.width - text.length
  if c.leftAligned then text ++ List.replicate missing space
  else List.replicate missing space ++ text

def inBase (base n : Nat) : Bytes := (Nat.toDigits base n).map fun c => UInt8.ofNat c.toNat

def number (c : Conversion) (sign digits : Bytes) : Bytes :=
  let digits := match c.precision with
    | some 0 => if digits = [zero] then [] else digits
    | some p => List.replicate (p - digits.length) zero ++ digits
    | none => digits
  if c.zeroFilled ∧ !c.leftAligned ∧ c.precision.isNone then
    sign ++ List.replicate (c.width - sign.length - digits.length) zero ++ digits
  else c.fill (sign ++ digits)

def signOf (c : Conversion) (n : Int) : Bytes :=
  if n < 0 then [minus] else if c.signed then [plus] else if c.spaced then [space] else []

def word (n : Int) : Nat := (n % 0x10000000000000000).toNat

end Conversion

inductive Complaint
  | notNumeric (argument : Bytes)
  | incomplete (argument : Bytes)
  | outOfRange (argument : Bytes)
  deriving DecidableEq, Repr

structure Progress where
  output : List Bytes := []
  arguments : List Bytes
  used : Bool := false
  complaints : List Complaint := []
  stopped : Bool := false

namespace Progress

def put (p : Progress) (bs : Bytes) : Progress := { p with output := bs :: p.output }

def take (p : Progress) : Option Bytes × Progress :=
  match p.arguments with
  | [] => (none, p)
  | a :: rest => (some a, { p with arguments := rest, used := true })

def complain (p : Progress) (c : Complaint) : Progress :=
  { p with complaints := c :: p.complaints }

def digitValue (d : UInt8) : Nat :=
  if isDigit d then d.toNat - 48
  else if 0x61 ≤ d ∧ d ≤ 0x66 then d.toNat - 87
  else if 0x41 ≤ d ∧ d ≤ 0x46 then d.toNat - 55
  else 99

def digits : Bytes → Bytes × Bytes × Nat
  | zero :: 0x78 :: ds =>
    let good := ds.takeWhile fun d => digitValue d < 16
    (good, ds.drop good.length, 16)
  | ds =>
    let base := if ds.head? = some zero then 8 else 10
    let good := ds.takeWhile fun d => digitValue d < base
    (good, ds.drop good.length, base)

def clamp (n : Int) : Int := max (-0x8000000000000000) (min n 0x7fffffffffffffff)

def integer (p : Progress) : Int × Progress :=
  match p.take with
  | (none, p) => (0, p)
  | (some [], p) => (0, p)
  | (some (q :: rest), p) =>
    if q = singleQuote ∨ q = doubleQuote then ((rest.head?.map (·.toNat)).getD 0, p)
    else
      let a := q :: rest
      let (negative, ds) := match a.dropWhile fun b => isBlank b || b = lineFeed with
        | minus :: ds => (true, ds)
        | plus :: ds => (false, ds)
        | ds => (false, ds)
      let (good, behind, base) := digits ds
      let n : Nat := good.foldl (fun n d => base * n + digitValue d) 0
      let n : Int := if negative then -(n : Int) else n
      if good = [] then (0, p.complain (.notNumeric a))
      else if behind ≠ [] then (clamp n, p.complain (.incomplete a))
      else if clamp n ≠ n then (clamp n, p.complain (.outOfRange a))
      else (n, p)

def convert (p : Progress) (c : Conversion) (letter : UInt8) : Option Progress :=
  match Char.ofNat letter.toNat with
  | 'd' | 'i' =>
    let (n, p) := p.integer
    some (p.put (c.number (c.signOf n) (ofNat n.natAbs)))
  | 'u' =>
    let (n, p) := p.integer
    some (p.put (c.number [] (ofNat (Conversion.word n))))
  | 'o' =>
    let (n, p) := p.integer
    some (p.put (c.number (if c.alternate then [zero] else [])
      (Conversion.inBase 8 (Conversion.word n))))
  | 'x' =>
    let (n, p) := p.integer
    let sign := if c.alternate ∧ n ≠ 0 then [zero, 0x78] else []
    some (p.put (c.number sign (Conversion.inBase 16 (Conversion.word n))))
  | 'X' =>
    let (n, p) := p.integer
    let sign := if c.alternate ∧ n ≠ 0 then [zero, 0x58] else []
    let digits := (Conversion.inBase 16 (Conversion.word n)).map fun d =>
      if 0x61 ≤ d then d - 0x20 else d
    some (p.put (c.number sign digits))
  | 'c' =>
    let (a, p) := p.take
    some (p.put (c.fill [(a.bind List.head?).getD 0]))
  | 's' =>
    let (a, p) := p.take
    let text := a.getD []
    some (p.put (c.fill (match c.precision with
      | some n => text.take n
      | none => text)))
  | 'b' =>
    let (a, p) := p.take
    let (text, stop) := resolve (a.getD [])
    some { p.put (c.fill text) with stopped := stop }
  | _ => none

end Progress

def size (p : Progress) : Bytes → Option Int × Bytes × Progress
  | asterisk :: rest =>
    let (n, p) := p.integer
    (some n, rest, p)
  | bs =>
    let ds := bs.takeWhile isDigit
    (if ds = [] then none else some (digitsToNat ds : Int), bs.dropWhile isDigit, p)

inductive Mistake
  | missingLetter
  | unknown (directive : Bytes)
  deriving DecidableEq, Repr

def conversion (p : Progress) (bs : Bytes) : Except Mistake (Progress × Bytes) :=
  let start := bs
  let (c, bs) := Conversion.flags {} bs
  let (width, bs, p) := size p bs
  let width := width.getD 0
  let c := { c with width := width.natAbs, leftAligned := c.leftAligned || width < 0 }
  let (precision, bs, p) : Option Nat × Bytes × Progress := match bs with
    | 0x2e :: rest =>
      let (n, rest, p) := size p rest
      (some (n.getD 0).toNat, rest, p)
    | _ => (none, bs, p)
  match bs with
  | letter :: rest =>
    match p.convert { c with precision } letter with
    | some p => .ok (p, rest)
    | none => .error (.unknown (percent :: start.take (start.length - rest.length)))
  | [] => .error .missingLetter

def pass : Nat → Progress → Bytes → Progress × Option Mistake
  | 0, p, _ => (p, none)
  | _ + 1, p, [] => (p, none)
  | fuel + 1, p, b :: rest =>
    if p.stopped then (p, none)
    else if b = backslash then
      let (bs, rest) := formatEscape rest
      pass fuel (p.put bs) rest
    else if b = percent then
      match rest with
      | percent :: rest => pass fuel (p.put [percent]) rest
      | _ =>
        match conversion p rest with
        | .ok (p, rest) => pass fuel p rest
        | .error m => (p, some m)
    else pass fuel (p.put [b]) rest

def passes (format : Bytes) : Nat → Progress → Progress × Option Mistake
  | 0, p => (p, none)
  | rounds + 1, p =>
    match pass (format.length + 1) { p with used := false } format with
    | (p, some m) => (p, some m)
    | (p, none) =>
      if p.stopped || p.arguments.isEmpty || !p.used then (p, none) else passes format rounds p

structure Result where
  output : Bytes
  complaints : List Complaint
  mistake : Option Mistake

/-- Formats the arguments; the format is used again until it has taken all of them. -/
def format (fmt : Bytes) (arguments : List Bytes) : Result :=
  let (p, mistake) := passes fmt (arguments.length + 1) { arguments }
  ⟨p.output.reverse.flatten, p.complaints.reverse, mistake⟩

end OwnedHandles.Shell.Formatted
