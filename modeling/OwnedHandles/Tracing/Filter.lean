import OwnedHandles.Event

namespace OwnedHandles.Tracing

/-- How far down the levels go that are wanted; zero is none at all. -/
abbrev Threshold := Nat

namespace Threshold

def off : Threshold := 0

def all : Threshold := Level.trace.rank

def names : List (String × Threshold) :=
  [("off", off), ("error", 1), ("warn", 2), ("info", 3), ("debug", 4), ("trace", 5),
   ("0", 0), ("1", 1), ("2", 2), ("3", 3), ("4", 4), ("5", 5)]

def ofText? (s : String) : Option Threshold := names.lookup s.toLower

def admits (t : Threshold) (l : Level) : Bool := l.rank ≤ t

end Threshold

structure Directive where
  target : Option String
  span : Option String
  threshold : Threshold
  deriving DecidableEq, Repr

namespace Directive

def isTargetChar (c : Char) : Bool :=
  c.isAlphanum || c = '_' || c = ':' || c = '-' || 0x80 ≤ c.toNat

structure Scope where
  target : Option String := none
  span : Option String := none

def scopePart (s : Scope) (cs : List Char) : Option (Scope × List Char) :=
  match cs with
  | '[' :: rest =>
    let inside := rest.takeWhile fun c => c ≠ ']'
    match rest.drop inside.length with
    | ']' :: rest =>
      let name := inside.takeWhile fun c => c ≠ '\x7b'
      some ({ s with span := if name = [] then none else some (String.ofList name) }, rest)
    | _ => none
  | cs =>
    let name := cs.takeWhile isTargetChar
    if name = [] then none
    else some ({ s with target := some (String.ofList name) }, cs.drop name.length)

def scope (cs : List Char) : Option (Scope × List Char) := do
  let (s, rest) ← scopePart {} cs
  return (scopePart s rest).getD (s, rest)

def thresholdPart : List Char → Option Threshold
  | [] | ['='] => some Threshold.all
  | '=' :: rest => Threshold.ofText? (String.ofList rest)
  | _ => none

/-- Reads `level`, `target`, `target=level`, with a span in brackets behind the target. A target
that is the name of a level is no target. -/
def ofText? (text : String) : Option Directive :=
  match Threshold.ofText? text with
  | some threshold => some ⟨none, none, threshold⟩
  | none => do
    let (s, rest) ← scope text.toList
    let threshold ← thresholdPart rest
    return ⟨s.target.filter fun t => (Threshold.ofText? t).isNone, s.span, threshold⟩

def covers (d : Directive) (target : String) : Bool :=
  match d.target with
  | some t => t.toList.isPrefixOf target.toList
  | none => true

def weight (d : Directive) : Nat := ((d.target.map fun t => t.length + 1)).getD 0

end Directive

structure Filter where
  directives : List Directive
  deriving DecidableEq, Repr

namespace Filter

def spanName : String := "os_call"

def standard : Filter := ⟨[⟨none, none, Level.info.rank⟩]⟩

/-- Directives between commas; one that can not be read spoils all. With none, only errors are
wanted. -/
def ofText? (text : String) : Option Filter := do
  let parts := (text.splitOn ",").filter fun p => p ≠ ""
  let ds ← parts.mapM Directive.ofText?
  return ⟨if ds.isEmpty then [⟨none, none, Level.error.rank⟩] else ds⟩

def ofSetting (setting : Option String) : Filter :=
  ((setting.bind ofText?)).getD standard

/-- The directive that decides about a target: the longest, and the latest of those. -/
def decisive (f : Filter) (target : String) : Option Directive :=
  (f.directives.filter fun d => d.span.isNone && d.covers target).foldl
    (fun best d =>
      match best with
      | none => some d
      | some b => if b.weight ≤ d.weight then some d else some b) none

def wants (f : Filter) (target : String) (l : Level) : Bool :=
  match f.decisive target with
  | some d => d.threshold.admits l
  | none => false

def spanDirectives (f : Filter) : List Directive :=
  f.directives.filter fun d => d.span = some spanName && d.covers Source.tracer.target

def wantsSpan (f : Filter) : Bool :=
  !f.spanDirectives.isEmpty || f.wants Source.tracer.target .debug

def wantsEvent (f : Filter) (e : Event) : Bool :=
  (e.span.isSome && f.spanDirectives.any fun d => d.threshold.admits e.level)
    || f.wants e.source.target e.level

end Filter

end OwnedHandles.Tracing
