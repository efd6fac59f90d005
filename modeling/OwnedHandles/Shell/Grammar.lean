import OwnedHandles.Shell.Token
import OwnedHandles.Text.Decoding

namespace OwnedHandles.Shell

structure Problem where
  line : Nat
  message : String
  deriving Repr

abbrev Parsing := StateT (List Located) (Except Problem)

namespace Parsing

def peek : Parsing (Option Token) := return (← get).head?.map Located.token

def line : Parsing Nat := do
  match ← get with
  | t :: _ => return t.line
  | [] => return 0

def skip : Parsing Unit := modify List.tail

def keywords : List String :=
  ["if", "then", "else", "elif", "fi", "do", "done", "case", "esac", "while", "until", "for",
   "in", "\x7b", "\x7d", "!"]

def keyword? : Token → Option String
  | .word [.plain text] => keywords.find? fun k => Bytes.ofString k = text
  | _ => none

def textOf (bs : Bytes) : String := Text.decodeLossy bs

def quotedName (s : String) : String := "\"" ++ s ++ "\""

def describe : Option Token → String
  | none => "end of file"
  | some .newline => "newline"
  | some (.redirect ..) => "redirection"
  | some (.operator op) => quotedName (textOf op)
  | some (.broken message) => message
  | some (.word w) =>
    match keyword? (.word w) with
    | some k => quotedName k
    | none => "word"

def unexpected {α : Type} (expecting : Option String) : Parsing α := do
  let token ← peek
  let hint := match expecting with
    | some e => " (expecting " ++ e ++ ")"
    | none => ""
  let message := match token with
    | some (.broken message) => message
    | _ => describe token ++ " unexpected" ++ hint
  throw ⟨← line, "Syntax error: " ++ message⟩

def isKeyword (k : String) : Parsing Bool := do
  match ← peek with
  | some t => return keyword? t = some k
  | none => return false

def isOperator (op : String) : Parsing Bool := do
  match ← peek with
  | some (.operator text) => return text = Bytes.ofString op
  | _ => return false

def needKeyword (k : String) : Parsing Unit := do
  if ← isKeyword k then skip else unexpected (some (quotedName k))

def needOperator (op : String) : Parsing Unit := do
  if ← isOperator op then skip else unexpected (some (quotedName op))

def skipNewlines : Parsing Unit :=
  modify fun ts => ts.dropWhile fun t => match t.token with
    | .newline => true
    | _ => false

def redirectKind (op : Bytes) : RedirectKind :=
  match textOf op with
  | "<" => .input
  | ">>" => .append
  | "<>" => .both
  | "<&" | ">&" => .copy
  | "<<" | "<<-" => .here
  | _ => .output

def defaultHandle (op : Bytes) : Nat := if op.head? = some Ascii.less then 0 else 1

def redirect (handle : Option Nat) (op : Bytes) : Parsing Redirect := do
  skip
  match ← peek with
  | some (.word target) =>
    skip
    return ⟨handle.getD (defaultHandle op), redirectKind op, target⟩
  | _ => unexpected none

def redirects : Nat → Parsing (List Redirect)
  | 0 => return []
  | rounds + 1 => do
    match ← peek with
    | some (.redirect handle op) =>
      let r ← redirect handle op
      return r :: (← redirects rounds)
    | _ => return []

def assignment? : Word → Option (Bytes × Word)
  | .plain text :: rest =>
    let name := text.takeWhile Ascii.continuesName
    match text.drop name.length with
    | Ascii.equals :: value =>
      if Ascii.isName name then
        some (name, if value = [] then rest else .plain value :: rest)
      else none
    | _ => none
  | _ => none

structure Simple where
  assignments : List (Bytes × Word) := []
  words : List Word := []
  redirects : List Redirect := []

def simpleFrom (rounds : Nat) (c : Simple) : Parsing Simple :=
  match rounds with
  | 0 => return c
  | rounds + 1 => do
    match ← peek with
    | some (.word w) =>
      skip
      match c.words, assignment? w with
      | [], some a => simpleFrom rounds { c with assignments := c.assignments ++ [a] }
      | _, _ => simpleFrom rounds { c with words := c.words ++ [w] }
    | some (.redirect handle op) =>
      let r ← redirect handle op
      simpleFrom rounds { c with redirects := c.redirects ++ [r] }
    | _ => return c

def wordList : Nat → Parsing (List Word)
  | 0 => return []
  | rounds + 1 => do
    match ← peek with
    | some (.word w) =>
      skip
      return w :: (← wordList rounds)
    | _ => return []

def needWord : Parsing Word := do
  match ← peek with
  | some (.word w) =>
    skip
    return w
  | _ => unexpected (some "word")

def patterns : Nat → Parsing (List Word)
  | 0 => unexpected none
  | rounds + 1 => do
    let w ← needWord
    if ← isOperator "|" then
      skip
      return w :: (← patterns rounds)
    return [w]

structure Inner where
  list : Parsing Command
  rounds : Nat

def armBody (inner : Inner) : Parsing Command := do
  skipNewlines
  if (← isOperator ";;") || (← isKeyword "esac") then return .empty
  inner.list

def arms (inner : Inner) : Nat → Parsing (List (List Word × Command))
  | 0 => unexpected none
  | rounds + 1 => do
    skipNewlines
    if ← isKeyword "esac" then
      skip
      return []
    if ← isOperator "(" then skip
    let ps ← patterns inner.rounds
    needOperator ")"
    let body ← armBody inner
    if ← isOperator ";;" then
      skip
      return (ps, body) :: (← arms inner rounds)
    if !(← isKeyword "esac") then unexpected (some (quotedName ";;"))
    skip
    return [(ps, body)]

def ifRest (inner : Inner) : Nat → Parsing Command
  | 0 => unexpected none
  | rounds + 1 => do
    let condition ← inner.list
    needKeyword "then"
    let yes ← inner.list
    if ← isKeyword "elif" then
      skip
      return .choose condition yes (← ifRest inner rounds)
    if ← isKeyword "else" then
      skip
      let no ← inner.list
      needKeyword "fi"
      return .choose condition yes no
    needKeyword "fi"
    return .choose condition yes .empty

def doGroup (inner : Inner) : Parsing Command := do
  needKeyword "do"
  let body ← inner.list
  needKeyword "done"
  return body

def loopName : Parsing Bytes := do
  match ← peek with
  | some (.word [.plain name]) =>
    if Ascii.isName name then
      skip
      return name
  | _ => pure ()
  throw ⟨← line, "Syntax error: Bad for loop variable"⟩

def forRest (inner : Inner) : Parsing Command := do
  let start ← line
  let name ← loopName
  skipNewlines
  let words ← (do
    if ← isKeyword "in" then
      skip
      let ws ← wordList inner.rounds
      return some ws
    return none)
  if ← isOperator ";" then skip
  skipNewlines
  return .forEach start name words (← doGroup inner)

def caseRest (inner : Inner) : Parsing Command := do
  let start ← line
  let subject ← needWord
  skipNewlines
  needKeyword "in"
  return .caseOf start subject (← arms inner inner.rounds)

def compound (inner : Inner) : Parsing (Option Command) := do
  if ← isOperator "(" then
    skip
    let c ← inner.list
    needOperator ")"
    return some (.subshell c)
  match (← peek).bind keyword? with
  | some "if" =>
    skip
    return some (← ifRest inner inner.rounds)
  | some "while" =>
    skip
    let c ← inner.list
    return some (.loop false c (← doGroup inner))
  | some "until" =>
    skip
    let c ← inner.list
    return some (.loop true c (← doGroup inner))
  | some "for" =>
    skip
    return some (← forRest inner)
  | some "case" =>
    skip
    return some (← caseRest inner)
  | some "\x7b" =>
    skip
    let c ← inner.list
    needKeyword "\x7d"
    return some c
  | some _ => unexpected none
  | none => return none

def withRedirects (inner : Inner) (line : Nat) (c : Command) : Parsing Command := do
  match ← redirects inner.rounds with
  | [] => return c
  | rs => return .redirected line c rs

def reserved : List String :=
  [":", ".", "break", "continue", "eval", "exec", "exit", "export", "local", "readonly",
   "return", "set", "shift", "times", "trap", "unset"]

def functionName (w : Word) : Parsing Bytes := do
  match w with
  | [.plain name] =>
    if Ascii.isName name && !reserved.contains (textOf name) then return name
  | _ => pure ()
  throw ⟨← line, "Syntax error: Bad function name"⟩

def functionBody (inner : Inner) : Parsing Command := do
  let start ← line
  match ← compound inner with
  | some body => withRedirects inner start body
  | none =>
    let c ← simpleFrom inner.rounds {}
    if c.assignments.isEmpty ∧ c.words.isEmpty ∧ c.redirects.isEmpty then unexpected none
    return .simple start c.assignments c.words c.redirects

def simple (inner : Inner) : Parsing Command := do
  let start ← line
  let c ← simpleFrom inner.rounds {}
  if c.assignments.isEmpty ∧ c.words.isEmpty ∧ c.redirects.isEmpty then unexpected none
  match c, ← isOperator "(" with
  | ⟨[], [w], []⟩, true =>
    skip
    needOperator ")"
    let name ← functionName w
    skipNewlines
    return .define name (← functionBody inner)
  | _, true => unexpected none
  | _, false => return .simple start c.assignments c.words c.redirects

def command (inner : Inner) : Parsing Command := do
  let line ← line
  match ← compound inner with
  | some c => withRedirects inner line c
  | none => simple inner

def pipelineFrom (inner : Inner) : Nat → Parsing (List Command)
  | 0 => unexpected none
  | rounds + 1 => do
    let c ← command inner
    if ← isOperator "|" then
      skip
      skipNewlines
      return c :: (← pipelineFrom inner rounds)
    return [c]

def pipeline (inner : Inner) : Parsing Command := do
  if ← isKeyword "!" then
    skip
    return .pipeline true (← pipelineFrom inner inner.rounds)
  match ← pipelineFrom inner inner.rounds with
  | [c] => return c
  | cs => return .pipeline false cs

def andOrFrom (inner : Inner) (rounds : Nat) (first : Command) : Parsing Command :=
  match rounds with
  | 0 => return first
  | rounds + 1 => do
    if ← isOperator "&&" then
      skip
      skipNewlines
      andOrFrom inner rounds (.both first (← pipeline inner))
    else if ← isOperator "||" then
      skip
      skipNewlines
      andOrFrom inner rounds (.either first (← pipeline inner))
    else return first

def andOr (inner : Inner) : Parsing Command := do
  andOrFrom inner inner.rounds (← pipeline inner)

def closes : Parsing Bool := do
  match ← peek with
  | none | some .newline => return true
  | some (.operator op) => return op ≠ Bytes.ofString "("
  | some t =>
    match keyword? t with
    | some k => return ["then", "else", "elif", "fi", "do", "done", "esac", "\x7d"].contains k
    | none => return false

def listFrom (inner : Inner) (lines : Bool) (rounds : Nat) (first : Command) : Parsing Command :=
  match rounds with
  | 0 => return first
  | rounds + 1 => do
    if lines then skipNewlines
    if ← closes then return first
    let c ← andOr inner
    let background ← isOperator "&"
    let separated ← (do
      if background then return true
      let newline := match ← peek with
        | some .newline => true
        | _ => false
      return (← isOperator ";") || (lines && newline))
    let c := if background then .background c else c
    let joined := match first with
      | .empty => c
      | first => .sequence first c
    if separated then
      skip
      listFrom inner lines rounds joined
    else return joined

def list (rounds : Nat) : Nat → Parsing Command
  | 0 => unexpected none
  | depth + 1 => do
    let inner := { list := list rounds depth, rounds }
    match ← listFrom inner true rounds .empty, ← peek with
    | .empty, some _ => unexpected none
    | c, _ => return c

def scriptLine (rounds depth : Nat) : Parsing Command := do
  let c ← listFrom { list := list rounds depth, rounds } false rounds .empty
  match ← peek with
  | none => return c
  | some .newline =>
    skip
    return c
  | some _ => unexpected none

end Parsing

structure Script where
  lines : List Command
  problem : Option Problem
  deriving Repr

namespace Script

def ofTokens : Nat → List Located → Script
  | 0, _ => ⟨[], none⟩
  | _ + 1, [] => ⟨[], none⟩
  | fuel + 1, t :: ts =>
    let size := ts.length + 2
    match (Parsing.scriptLine size size).run (t :: ts) with
    | .error problem => ⟨[], some problem⟩
    | .ok (c, rest) =>
      let s := ofTokens fuel rest
      { s with lines := c :: s.lines }

def ofText (text : Bytes) : Script :=
  let tokens := Token.ofText text
  let s := ofTokens (tokens.length + 1) tokens
  let lastLine := 1 + Token.countLines text
  { s with problem := s.problem.map fun p =>
      if p.line = 0 then { p with line := lastLine } else p }

end Script

end OwnedHandles.Shell
