import OwnedHandles.Shell.Arithmetic
import OwnedHandles.Shell.Frame

namespace OwnedHandles.Shell

open Kernel

inductive Atom
  | byte (b : UInt8) (quoted expanded : Bool)
  /-- A quoted part, which makes a field even where it is empty. -/
  | mark
  | fieldEnd
  deriving DecidableEq, Repr

namespace Atom

def ofBytes (bs : Bytes) (quoted expanded : Bool) : List Atom :=
  bs.map fun b => .byte b quoted expanded

def toBytes (as : List Atom) : Bytes :=
  as.filterMap fun a => match a with
    | byte b _ _ => some b
    | fieldEnd => some Ascii.space
    | mark => none

def toMarked (as : List Atom) : Marked :=
  as.filterMap fun a => match a with
    | byte b quoted _ => some (b, quoted)
    | _ => none

end Atom

namespace Fields

structure Splitting where
  made : List Marked := []
  current : Option Marked := none
  afterBlank : Bool := false

namespace Splitting

def push (s : Splitting) : Splitting :=
  match s.current with
  | some f => { made := f.reverse :: s.made, current := none, afterBlank := s.afterBlank }
  | none => s

def add (s : Splitting) (b : UInt8) (quoted : Bool) : Splitting :=
  { s with current := some ((b, quoted) :: s.current.getD []), afterBlank := false }

/-- Blanks only end a field, any other separator stands behind one, be it empty. -/
def separate (s : Splitting) (b : UInt8) : Splitting :=
  if Ascii.isBlank b || b = Ascii.lineFeed then
    { s.push with afterBlank := s.current.isSome || s.afterBlank }
  else if s.afterBlank ∧ s.current.isNone then { s with afterBlank := false }
  else { { s with current := some (s.current.getD []) }.push with afterBlank := false }

def step (separators : Bytes) (s : Splitting) : Atom → Splitting
  | .byte b quoted expanded =>
    if expanded && !quoted && separators.contains b then s.separate b else s.add b quoted
  | .mark => { s with current := some (s.current.getD []), afterBlank := false }
  | .fieldEnd => { s.push with afterBlank := false }

end Splitting

def split (separators : Bytes) (as : List Atom) : List Marked :=
  (as.foldl (Splitting.step separators) {}).push.made.reverse

end Fields

namespace Frame

def parameter? (f : Frame) (pid : Pid) (name : Bytes) : Option Bytes :=
  match Ascii.nat? name with
  | some 0 => some f.name
  | some (n + 1) => f.positional[n]?
  | none =>
    match Text.decodeLossy name with
    | "?" => some (Ascii.ofNat f.status)
    | "#" => some (Ascii.ofNat f.positional.length)
    | "$" => some (Ascii.ofInt pid)
    | "-" => some f.options.letters
    | "!" => f.jobs.head?.map fun j => Ascii.ofInt j.1
    | _ => f.valueOf? name

def isAll (name : Bytes) : Bool := name = [Ascii.asterisk] || name = [0x40]

def spread (quoted : Bool) : List Bytes → List Atom
  | [] => []
  | [a] => (if quoted then [.mark] else []) ++ Atom.ofBytes a quoted true
  | a :: rest =>
    (if quoted then [.mark] else []) ++ Atom.ofBytes a quoted true ++
      .fieldEnd :: spread quoted rest

def joined (f : Frame) : Bytes :=
  (f.positional.intersperse f.separators.head?.toList).flatten

end Frame

namespace Expansion

def value? (name : Bytes) (inQuotes : Bool) : Run (Option (List Atom)) := do
  let f ← get
  if Frame.isAll name then
    if f.positional.isEmpty then return none
    else if inQuotes && name = [Ascii.asterisk] then
      return some (Atom.ofBytes f.joined true true)
    else return some (Frame.spread inQuotes f.positional)
  else
    return (f.parameter? (← read) name).map fun v => Atom.ofBytes v inQuotes true

def isEmptyValue (v : Option (List Atom)) : Bool :=
  match v with
  | some as => (Atom.toBytes as).isEmpty
  | none => true

def alternative (name : Bytes) (inQuotes : Bool) (kind : Alternative) (orEmpty : Bool)
    (operand : Run (List Atom)) : Run (List Atom) := do
  let v ← value? name inQuotes
  let isMissing := v.isNone || (orEmpty && isEmptyValue v)
  let found := v.getD []
  let text := Text.decodeLossy name
  match kind with
  | .useDefault => if isMissing then operand else return found
  | .assign =>
    if isMissing then
      let bs := Atom.toBytes (← operand)
      if !Ascii.isName name then Run.die (text ++ ": bad variable name")
      Run.assign "" name bs
      return Atom.ofBytes bs inQuotes true
    else return found
  | .replace => if isMissing then return [] else operand
  | .complain =>
    if isMissing then
      let bs := Atom.toBytes (← operand)
      let unset := if orEmpty then "parameter not set or null" else "parameter not set"
      let what := if bs = [] then unset else Text.decodeLossy bs
      Run.die (text ++ ": " ++ what)
    else return found
  | .dropFront longest =>
    let p := Pattern.ofMarked (Atom.toMarked (← operand))
    return Atom.ofBytes (p.dropFront longest (Atom.toBytes found)) inQuotes true
  | .dropBack longest =>
    let p := Pattern.ofMarked (Atom.toMarked (← operand))
    return Atom.ofBytes (p.dropBack longest (Atom.toBytes found)) inQuotes true

def assignNumbers : List (Bytes × Int) → Run Unit
  | [] => return ()
  | (name, n) :: rest => do
    Run.assign "" name (Ascii.ofInt n)
    assignNumbers rest

def arithmetic (expression : Bytes) : Run Int := do
  let f ← get
  match Arithmetic.evaluate (fun name => (f.valueOf? name).getD []) expression with
  | .ok (n, assigned) =>
    assignNumbers assigned
    return n
  | .error m => Run.die (m.message expression)

/-- The output of a command loses the line ends at its end, and bytes that no word can hold. -/
def trimmed (bs : Bytes) : Bytes :=
  ((bs.filter fun b => b ≠ 0).reverse.dropWhile fun b => b = Ascii.lineFeed).reverse

def needed (name : Bytes) (inQuotes : Bool) : Run (List Atom) := do
  match ← value? name inQuotes with
  | some as => return as
  | none =>
    if (← get).options.needSet && !Frame.isAll name then
      Run.die (Text.decodeLossy name ++ ": parameter not set")
    return []

mutual

def piece (run : Bytes → Run Bytes) : Piece → Run (List Atom)
  | .plain text => return Atom.ofBytes text false false
  | .quoted text => return .mark :: Atom.ofBytes text true false
  | .parameter name inQuotes => do
    if inQuotes && name ≠ [0x40] then return .mark :: (← needed name true)
    else needed name inQuotes
  | .length name inQuotes => do
    let n := (Atom.toBytes (← needed name inQuotes)).length
    return Atom.ofBytes (Ascii.ofNat n) inQuotes true
  | .alternative name inQuotes kind orEmpty operand => do
    let as ← alternative name inQuotes kind orEmpty (pieces run operand)
    return if inQuotes then .mark :: as else as
  | .output source inQuotes => do
    let bs := trimmed (← run source)
    return (if inQuotes then [.mark] else []) ++ Atom.ofBytes bs inQuotes true
  | .arithmetic expression inQuotes => do
    let n ← arithmetic (Atom.toBytes (← pieces run expression))
    return Atom.ofBytes (Ascii.ofInt n) inQuotes true
  | .strange => Run.die "Bad substitution"

def pieces (run : Bytes → Run Bytes) : List Piece → Run (List Atom)
  | [] => return []
  | p :: ps => do
    let front ← piece run p
    return front ++ (← pieces run ps)

end

def namesIn (s : State) (pid : Pid) (path : Bytes) : List Bytes :=
  match Walk.find s pid true path with
  | .ok i =>
    match s.content i with
    | .directory _ entries => entries.map Prod.fst
    | _ => []
  | .error _ => []

def nameBefore (a b : Bytes) : Bool := !Environment.keyBefore b a

/-- File names that match the last step of a path; the steps before it are taken as they are. -/
def fileNames (s : State) (pid : Pid) (m : Marked) : List Bytes :=
  let last := (m.reverse.takeWhile fun b => b.1 ≠ Route.slash).reverse
  let front := (m.take (m.length - last.length)).map Prod.fst
  let p := Pattern.ofMarked last
  if !p.isWild then []
  else
    let names := namesIn s pid (if front = [] then Route.dot else front)
    let dotted := last.head?.map Prod.fst = some 0x2e
    let found := names.filter fun n =>
      (dotted || n.head? ≠ some 0x2e) && p.matchesAll n
    (found.mergeSort nameBefore).map fun n => front ++ n

def homeOf (f : Frame) (user : Bytes) : Option Bytes :=
  if user = [] then f.valueOf? (Bytes.ofString "HOME")
  else if user = Bytes.ofString "root" then some (Bytes.ofString "/root")
  else none

def withHome (f : Frame) : Word → Word
  | .plain (0x7e :: rest) :: more =>
    let user := rest.takeWhile fun b => b ≠ Route.slash
    let behind := rest.drop user.length
    match homeOf f user with
    | some home =>
      if behind = [] && !more.isEmpty then .plain (0x7e :: rest) :: more
      else .quoted home :: .plain behind :: more
    | none => .plain (0x7e :: rest) :: more
  | w => w

def fields (run : Bytes → Run Bytes) (w : Word) : Run (List Bytes) := do
  let as ← pieces run (withHome (← get) w)
  let f ← get
  let s ← getThe State
  let pid ← read
  return (Fields.split f.separators as).flatMap fun m =>
    match if f.options.plainNames then [] else fileNames s pid m with
    | [] => [m.map Prod.fst]
    | names => names

def text (run : Bytes → Run Bytes) (w : Word) : Run Bytes := do
  return Atom.toBytes (← pieces run (withHome (← get) w))

def pattern (run : Bytes → Run Bytes) (w : Word) : Run Pattern :=
  return Pattern.ofMarked (Atom.toMarked (← pieces run w))

def allFields (run : Bytes → Run Bytes) : List Word → Run (List Bytes)
  | [] => return []
  | w :: ws => do
    let front ← fields run w
    return front ++ (← allFields run ws)

end Expansion

end OwnedHandles.Shell
