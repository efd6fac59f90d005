import OwnedHandles.Shell.Syntax

namespace OwnedHandles.Shell

inductive Token
  | word (w : Word)
  | operator (text : Bytes)
  | redirect (handle : Option Nat) (text : Bytes)
  | newline
  | broken (message : String)
  deriving Repr, Inhabited

/-- A token at a line; zero stands for the last line. -/
structure Located where
  line : Nat
  token : Token
  deriving Repr, Inhabited

namespace Token

open Ascii

inductive Ending
  | word
  | doubleQuote
  | brace (inQuotes : Bool)
  /-- Two closing parentheses, outside of any that were opened before. -/
  | arithmetic (depth : Nat)
  | document

def Ending.inQuotes : Ending → Bool
  | .word | .brace false => false
  | .doubleQuote | .brace true | .arithmetic _ | .document => true

def isOperatorByte (b : UInt8) : Bool :=
  b = semicolon || b = ampersand || b = bar || b = less || b = greater || b = openParen
    || b = closeParen || b = lineFeed

def endsWord (b : UInt8) : Bool := isBlank b || isOperatorByte b

def isSpecial (b : UInt8) : Bool :=
  [asterisk, 0x40, hashSign, question, minus, dollar, bang].contains b || isDigit b

def text (e : Ending) (bs : Bytes) : Piece := if e.inQuotes then .quoted bs else .plain bs

def unterminated : String := "Unterminated quoted string"

def upTo (stop : UInt8) : Bytes → Option (Bytes × Bytes)
  | [] => none
  | b :: rest => if b = stop then some ([], rest) else (upTo stop rest).map fun p => (b :: p.1, p.2)

def backquoted : Bytes → Option (Bytes × Bytes)
  | [] => none
  | backquote :: rest => some ([], rest)
  | backslash :: b :: rest =>
    let kept := if b = backquote ∨ b = backslash ∨ b = dollar then [b] else [backslash, b]
    (backquoted rest).map fun p => (kept ++ p.1, p.2)
  | b :: rest => (backquoted rest).map fun p => (b :: p.1, p.2)

/-- The text up to the parenthesis that closes it; the quote that is open, if any, is `within`. -/
def parenthesized (within : Option UInt8) (depth : Nat) : Bytes → Option (Bytes × Bytes)
  | [] => none
  | backslash :: b :: rest =>
    if within = some singleQuote then
      (parenthesized within depth (b :: rest)).map fun p => (backslash :: p.1, p.2)
    else (parenthesized within depth rest).map fun p => (backslash :: b :: p.1, p.2)
  | b :: rest =>
    let keep (p : Bytes × Bytes) := (b :: p.1, p.2)
    match within with
    | some quote =>
      (parenthesized (if b = quote then none else within) depth rest).map keep
    | none =>
      if b = singleQuote ∨ b = doubleQuote then (parenthesized (some b) depth rest).map keep
      else if b = openParen then (parenthesized none (depth + 1) rest).map keep
      else if b = closeParen then
        if depth = 0 then some ([], rest) else (parenthesized none (depth - 1) rest).map keep
      else (parenthesized none depth rest).map keep

def parameterName : Bytes → Option (Bytes × Bytes)
  | [] => none
  | b :: rest =>
    if startsName b then
      some (b :: rest.takeWhile continuesName, rest.dropWhile continuesName)
    else if isSpecial b then some ([b], rest)
    else none

def bracedName (bs : Bytes) : Option (Bytes × Bytes) :=
  let digits := bs.takeWhile isDigit
  if digits ≠ [] then some (digits, bs.dropWhile isDigit) else parameterName bs

/-- The operator behind a braced name: its kind and whether empty counts as unset. -/
def alternativeOf : Bytes → Option (Alternative × Bool × Bytes)
  | colon :: minus :: rest => some (.useDefault, true, rest)
  | colon :: equals :: rest => some (.assign, true, rest)
  | colon :: plus :: rest => some (.replace, true, rest)
  | colon :: question :: rest => some (.complain, true, rest)
  | minus :: rest => some (.useDefault, false, rest)
  | equals :: rest => some (.assign, false, rest)
  | plus :: rest => some (.replace, false, rest)
  | question :: rest => some (.complain, false, rest)
  | hashSign :: hashSign :: rest => some (.dropFront true, false, rest)
  | hashSign :: rest => some (.dropFront false, false, rest)
  | percent :: percent :: rest => some (.dropBack true, false, rest)
  | percent :: rest => some (.dropBack false, false, rest)
  | _ => none

def join : List Piece → List Piece
  | [] => []
  | .plain a :: rest =>
    match join rest with
    | .plain b :: more => .plain (a ++ b) :: more
    | joined => .plain a :: joined
  | .quoted a :: rest =>
    match join rest with
    | .quoted b :: more => .quoted (a ++ b) :: more
    | joined => .quoted a :: joined
  | p :: rest => p :: join rest

def expansion (inner : Ending → Bytes → Except String (List Piece × Bytes)) (inQuotes : Bool) :
    Bytes → Except String (Piece × Bytes)
  | openParen :: openParen :: rest => do
    let (expression, rest) ← inner (.arithmetic 0) rest
    return (.arithmetic (join expression) inQuotes, rest)
  | openParen :: rest =>
    match parenthesized none 0 rest with
    | some (source, rest) => .ok (.output source inQuotes, rest)
    | none => .error "end of file unexpected (expecting \")\")"
  | openBrace :: hashSign :: closeBrace :: rest => .ok (.parameter [hashSign] inQuotes, rest)
  | openBrace :: hashSign :: rest =>
    match bracedName rest with
    | some (name, closeBrace :: rest) => .ok (.length name inQuotes, rest)
    | _ => strange rest
  | openBrace :: rest =>
    match bracedName rest with
    | some (name, closeBrace :: rest) => .ok (.parameter name inQuotes, rest)
    | some (name, rest) =>
      match alternativeOf rest with
      | some (kind, orEmpty, rest) => do
        let (operand, rest) ← inner (.brace (inQuotes && !kind.isPattern)) rest
        return (.alternative name inQuotes kind orEmpty (join operand), rest)
      | none => strange rest
    | none => strange rest
  | bs =>
    match parameterName bs with
    | some (name, rest) => .ok (.parameter name inQuotes, rest)
    | none => .ok (text (if inQuotes then .doubleQuote else Ending.word) [dollar], bs)
where
  strange (rest : Bytes) : Except String (Piece × Bytes) := do
    let (_, rest) ← inner (.brace inQuotes) rest
    return (.strange, rest)

def Ending.escapes (e : Ending) (b : UInt8) : Bool :=
  match e with
  | .document => [dollar, backquote, backslash].contains b
  | e => !e.inQuotes || [dollar, backquote, Ascii.doubleQuote, backslash].contains b

def escaped (e : Ending) (b : UInt8) : List Piece :=
  if b = lineFeed then []
  else if e.escapes b then [.quoted [b]]
  else [.quoted [backslash, b]]

def pieces : Nat → Ending → Bytes → Except String (List Piece × Bytes)
  | 0, _, _ => .error unterminated
  | _ + 1, .word, [] => .ok ([], [])
  | _ + 1, .document, [] => .ok ([], [])
  | _ + 1, .brace _, [] => .error "Missing '\x7d'"
  | _ + 1, .arithmetic _, [] => .error "Missing '))'"
  | _ + 1, .doubleQuote, [] => .error unterminated
  | fuel + 1, e, b :: rest => do
    let more (front : List Piece) (e : Ending) (rest : Bytes) := do
      let (ps, rest) ← pieces fuel e rest
      return (front ++ ps, rest)
    match e, b, rest with
    | _, backslash, c :: rest => more (escaped e c) e rest
    | _, dollar, rest =>
      let (p, rest) ← expansion (pieces fuel) e.inQuotes rest
      more [p] e rest
    | _, backquote, rest =>
      match backquoted rest with
      | some (source, rest) => more [.output source e.inQuotes] e rest
      | none => .error "EOF in backquote substitution"
    | .doubleQuote, doubleQuote, rest => return ([], rest)
    | .brace _, closeBrace, rest => return ([], rest)
    | .arithmetic 0, closeParen, closeParen :: rest => return ([], rest)
    | .arithmetic depth, openParen, rest => more [.quoted [b]] (.arithmetic (depth + 1)) rest
    | .arithmetic (depth + 1), closeParen, rest => more [.quoted [b]] (.arithmetic depth) rest
    | .arithmetic _, _, rest => more [.quoted [b]] e rest
    | .doubleQuote, _, rest | .document, _, rest => more [.quoted [b]] e rest
    | _, doubleQuote, rest =>
      let (ps, rest) ← pieces fuel .doubleQuote rest
      more (if ps.isEmpty then [.quoted []] else ps) e rest
    | .brace true, _, rest => more [.quoted [b]] e rest
    | _, singleQuote, rest =>
      match upTo singleQuote rest with
      | some (inside, rest) => more [.quoted inside] e rest
      | none => .error unterminated
    | .word, _, rest => if endsWord b then return ([], b :: rest) else more [.plain [b]] e rest
    | _, _, rest => more [.plain [b]] e rest

def operators : List Bytes :=
  ["&&", "||", ";;", ";", "&", "|", "(", ")"].map Bytes.ofString

def redirections : List Bytes :=
  ["<<-", "<<", "<&", "<>", "<", ">>", ">&", ">|", ">"].map Bytes.ofString

def startingWith (texts : List Bytes) (bs : Bytes) : Option (Bytes × Bytes) :=
  (texts.find? fun t => t.isPrefixOf bs).map fun t => (t, bs.drop t.length)

def redirection (bs : Bytes) : Option (Token × Bytes) :=
  let digits := bs.takeWhile isDigit
  (startingWith redirections (bs.dropWhile isDigit)).map fun p =>
    (.redirect (if digits = [] then none else some (digitsToNat digits)) p.1, p.2)

def next (bs : Bytes) : Token × Bytes :=
  match bs with
  | lineFeed :: rest => (.newline, rest)
  | _ =>
    match redirection bs, startingWith operators bs with
    | some found, _ => found
    | none, some (op, rest) => (.operator op, rest)
    | none, none =>
      match pieces (bs.length + 1) .word bs with
      | .ok (ps, rest) => (.word (join ps), rest)
      | .error message => (.broken message, [])

def countLines (bs : Bytes) : Nat := bs.count lineFeed

def delimiter (w : Word) : Bytes × Bool :=
  (w.flatMap fun p => match p with
    | .plain text | .quoted text => text
    | _ => [],
   w.any fun p => match p with
    | .plain _ => false
    | _ => true)

def linesUpTo (stop : Bytes) (withoutTabs : Bool) : Nat → Bytes → Bytes × Bytes
  | 0, bs => ([], bs)
  | _ + 1, [] => ([], [])
  | fuel + 1, bs =>
    let line := bs.takeWhile fun b => b ≠ lineFeed
    let behind := bs.drop line.length
    let line := if withoutTabs then line.dropWhile fun b => b = tab else line
    if line = stop then ([], behind.drop 1)
    else
      let (more, rest) := linesUpTo stop withoutTabs fuel (behind.drop 1)
      (line ++ behind.take 1 ++ more, rest)

/-- A text that follows the line which asks for it: the word before `left` ends it. Gives the text
as a token, the number of its lines, and what is left to read without it. -/
def document (withoutTabs : Bool) (w : Word) (left : Bytes) : Token × Nat × Bytes :=
  let line := left.takeWhile fun b => b ≠ lineFeed
  let (stop, isQuoted) := delimiter w
  let below := left.drop (line.length + 1)
  let (body, rest) := linesUpTo stop withoutTabs (below.length + 1) below
  let token :=
    if isQuoted then .word [.quoted body]
    else match pieces (body.length + 1) .document body with
      | .ok (ps, _) => .word (join ps)
      | .error message => .broken message
  (token, countLines below - countLines rest, line ++ lineFeed :: rest)

def skipBlanks (bs : Bytes) : Bytes := bs.dropWhile isBlank

/-- All tokens of a text; the fuel is more than its length. `below` lines have been taken out of
the text behind the line that is being read. -/
def all : Nat → Nat → Nat → Bytes → List Located
  | 0, _, _, _ => []
  | _ + 1, _, _, [] => []
  | fuel + 1, line, below, b :: rest =>
    match b, rest with
    | backslash, lineFeed :: rest => all fuel (line + 1) below rest
    | hashSign, rest => all fuel line below (rest.dropWhile fun c => c ≠ lineFeed)
    | _, rest =>
      if isBlank b then all fuel line below rest
      else
        match next (b :: rest) with
        | (.newline, left) => ⟨line, .newline⟩ :: all fuel (line + 1 + below) 0 left
        | (.redirect handle op, left) =>
          let redirect : Located := ⟨line, .redirect handle op⟩
          if (Bytes.ofString "<<").isPrefixOf op then
            match next (skipBlanks left) with
            | (.word w, left) =>
              let (text, lines, left) := document (op.contains minus) w left
              redirect :: ⟨line, text⟩ :: all fuel line (below + lines) left
            | _ => redirect :: all fuel line below left
          else redirect :: all fuel line below left
        | (.broken message, _) => [⟨0, .broken message⟩]
        | (token, left) =>
          let read := (b :: rest).take (rest.length + 1 - left.length)
          ⟨line, token⟩ :: all fuel (line + countLines read) below left

def ofText (bs : Bytes) : List Located := all (bs.length + 1) 1 0 bs

end Token

end OwnedHandles.Shell
