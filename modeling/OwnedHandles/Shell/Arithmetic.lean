import OwnedHandles.Text.Ascii
import OwnedHandles.Text.Decoding

namespace OwnedHandles.Shell.Arithmetic

open Ascii

inductive Symbol
  | number (n : Int)
  | name (n : Bytes)
  | sign (text : String)
  deriving DecidableEq, Repr

def signs : List String :=
  ["<<=", ">>=", "<<", ">>", "<=", ">=", "==", "!=", "&&", "||", "+=", "-=", "*=", "/=", "%=",
   "&=", "^=", "|=", "+", "-", "*", "/", "%", "<", ">", "!", "~", "&", "|", "^", "(", ")", "?",
   ":", "="]

def isHexDigit (b : UInt8) : Bool := isDigit b || (0x41 ≤ b && b ≤ 0x46) || (0x61 ≤ b && b ≤ 0x66)

def hexValue (b : UInt8) : Nat :=
  if isDigit b then b.toNat - 48 else if b < 0x47 then b.toNat - 55 else b.toNat - 87

def largest : Nat := 0x7fffffffffffffff

def numeral (bs : Bytes) : Int × Bytes :=
  let (n, rest) : Nat × Bytes := match bs with
    | zero :: 0x78 :: d :: rest =>
      if isHexDigit d then
        let ds := d :: rest.takeWhile isHexDigit
        (ds.foldl (fun n d => 16 * n + hexValue d) 0, rest.dropWhile isHexDigit)
      else (0, 0x78 :: d :: rest)
    | zero :: rest =>
      let ds := rest.takeWhile isOctalDigit
      (ds.foldl (fun n d => 8 * n + (d.toNat - 48)) 0, rest.dropWhile isOctalDigit)
    | bs => (digitsToNat (bs.takeWhile isDigit), bs.dropWhile isDigit)
  (min n largest, rest)

def isSpace (b : UInt8) : Bool := isBlank b || b = lineFeed

def number? (bs : Bytes) : Option Int :=
  let (n, rest) := match bs.dropWhile isSpace with
    | minus :: ds => let (n, rest) := numeral ds; (-n, rest)
    | plus :: ds => numeral ds
    | ds => numeral ds
  if rest.all isSpace then some n else none

/-- The symbols of an expression; the fuel is more than its length. A byte that starts none is
a sign that means nothing. -/
def symbols : Nat → Bytes → List Symbol
  | 0, _ => []
  | _ + 1, [] => []
  | fuel + 1, b :: rest =>
    if isSpace b then symbols fuel rest
    else if isDigit b then
      let (n, rest) := numeral (b :: rest)
      .number n :: symbols fuel rest
    else if startsName b then
      .name (b :: rest.takeWhile continuesName)
        :: symbols fuel (rest.dropWhile continuesName)
    else
      match signs.find? fun s => (Bytes.ofString s).isPrefixOf (b :: rest) with
      | some s => .sign s :: symbols fuel (rest.drop (s.length - 1))
      | none => .sign (Text.decodeLossy [b]) :: symbols fuel rest

def wrap (n : Int) : Int := n.bmod 0x10000000000000000

def truth (b : Bool) : Int := if b then 1 else 0

inductive Mistake
  | expectedPrimary
  | expectedEnd
  | divisionByZero
  | illegalNumber (value : Bytes)
  deriving DecidableEq, Repr

def Mistake.message (expression : Bytes) : Mistake → String
  | expectedPrimary => within "expecting primary"
  | expectedEnd => within "expecting EOF"
  | divisionByZero => within "division by zero"
  | illegalNumber value => "Illegal number: " ++ Text.decodeLossy value
where
  within (what : String) : String :=
    "arithmetic expression: " ++ what ++ ": \"" ++ Text.decodeLossy expression ++ "\""

def bits (n : Int) : BitVec 64 := BitVec.ofInt 64 n

def apply (op : String) (a b : Int) : Except Mistake Int :=
  match op with
  | "+" => .ok (wrap (a + b))
  | "-" => .ok (wrap (a - b))
  | "*" => .ok (wrap (a * b))
  | "/" => if b = 0 then .error .divisionByZero else .ok (wrap (a.tdiv b))
  | "%" => if b = 0 then .error .divisionByZero else .ok (a.tmod b)
  | "<<" => .ok ((bits a <<< (b.toNat % 64)).toInt)
  | ">>" => .ok ((bits a).sshiftRight (b.toNat % 64)).toInt
  | "<" => .ok (truth (a < b))
  | ">" => .ok (truth (a > b))
  | "<=" => .ok (truth (a ≤ b))
  | ">=" => .ok (truth (a ≥ b))
  | "==" => .ok (truth (a = b))
  | "!=" => .ok (truth (a ≠ b))
  | "&" => .ok (bits a &&& bits b).toInt
  | "^" => .ok (bits a ^^^ bits b).toInt
  | "|" => .ok (bits a ||| bits b).toInt
  | "&&" => .ok (truth (a ≠ 0 ∧ b ≠ 0))
  | "||" => .ok (truth (a ≠ 0 ∨ b ≠ 0))
  | _ => .error .expectedEnd

def strength? (op : String) : Option Nat :=
  match op with
  | "||" => some 1 | "&&" => some 2 | "|" => some 3 | "^" => some 4 | "&" => some 5
  | "==" | "!=" => some 6
  | "<" | ">" | "<=" | ">=" => some 7
  | "<<" | ">>" => some 8
  | "+" | "-" => some 9
  | "*" | "/" | "%" => some 10
  | _ => none

/-- The operator that an assignment applies to the old value and the new one; a plain assignment
applies none. -/
def assignment? (op : String) : Option (Option String) :=
  match op with
  | "=" => some none
  | "+=" => some (some "+") | "-=" => some (some "-") | "*=" => some (some "*")
  | "/=" => some (some "/") | "%=" => some (some "%") | "<<=" => some (some "<<")
  | ">>=" => some (some ">>") | "&=" => some (some "&") | "^=" => some (some "^")
  | "|=" => some (some "|")
  | _ => none

structure Reading where
  rest : List Symbol
  assigned : List (Bytes × Int) := []

abbrev Reader := StateT Reading (Except Mistake)

namespace Reader

def symbols : Reader (List Symbol) := return (← get).rest

def goOn (rest : List Symbol) : Reader Unit := modify fun r => { r with rest }

def valueOf (value : Bytes → Bytes) (name : Bytes) : Reader Int := do
  match (← get).assigned.lookup name with
  | some n => return n
  | none =>
    match number? (value name) with
    | some n => return wrap n
    | none => throw (.illegalNumber (value name))

def assign (name : Bytes) (n : Int) : Reader Int := do
  modify fun r => { r with assigned := (name, n) :: r.assigned }
  return n

end Reader

def primary (value : Bytes → Bytes) (whole : Reader Int) : Nat → Reader Int
  | 0 => throw .expectedPrimary
  | fuel + 1 => do
    match ← Reader.symbols with
    | .number n :: rest =>
      Reader.goOn rest
      return wrap n
    | .name n :: rest =>
      Reader.goOn rest
      Reader.valueOf value n
    | .sign "(" :: rest =>
      Reader.goOn rest
      let n ← whole
      match ← Reader.symbols with
      | .sign ")" :: rest =>
        Reader.goOn rest
        return n
      | _ => throw .expectedPrimary
    | .sign "-" :: rest =>
      Reader.goOn rest
      return wrap (-(← primary value whole fuel))
    | .sign "+" :: rest =>
      Reader.goOn rest
      primary value whole fuel
    | .sign "!" :: rest =>
      Reader.goOn rest
      return truth ((← primary value whole fuel) = 0)
    | .sign "~" :: rest =>
      Reader.goOn rest
      return wrap (-(← primary value whole fuel) - 1)
    | _ => throw .expectedPrimary

def climb (operand : Reader Int) : Nat → Nat → Int → Reader Int
  | 0, _, left => return left
  | fuel + 1, least, left => do
    match ← Reader.symbols with
    | .sign op :: rest =>
      match strength? op with
      | some s =>
        if s < least then return left
        Reader.goOn rest
        let right ← climb operand fuel (s + 1) (← operand)
        climb operand fuel least (← apply op left right)
      | none => return left
    | _ => return left

def choice (value : Bytes → Bytes) (whole : Reader Int) (rounds : Nat) : Reader Int := do
  let operand := primary value whole rounds
  let condition ← climb operand rounds 0 (← operand)
  match ← Reader.symbols with
  | .sign "?" :: rest =>
    Reader.goOn rest
    let yes ← whole
    match ← Reader.symbols with
    | .sign ":" :: rest =>
      Reader.goOn rest
      let no ← whole
      return if condition ≠ 0 then yes else no
    | _ => throw .expectedPrimary
  | _ => return condition

def whole (value : Bytes → Bytes) (rounds : Nat) : Nat → Reader Int
  | 0 => throw .expectedPrimary
  | depth + 1 => do
    match ← Reader.symbols with
    | .name n :: .sign op :: rest =>
      match assignment? op with
      | some change =>
        Reader.goOn rest
        let right ← whole value rounds depth
        match change with
        | none => Reader.assign n right
        | some op => Reader.assign n (← apply op (← Reader.valueOf value n) right)
      | none => choice value (whole value rounds depth) rounds
    | _ => choice value (whole value rounds depth) rounds

/-- The value of an expression and the assignments in it, in their order; names stand for the
numbers that their values are. -/
def evaluate (value : Bytes → Bytes) (expression : Bytes) :
    Except Mistake (Int × List (Bytes × Int)) :=
  match symbols (expression.length + 1) expression with
  | [] => .ok (0, [])
  | ss => do
    let (n, r) ← (whole value (ss.length + 1) (ss.length + 1)).run { rest := ss }
    if r.rest = [] then return (n, r.assigned.reverse) else throw .expectedEnd

end OwnedHandles.Shell.Arithmetic
