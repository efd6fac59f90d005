import OwnedHandles.Tracing.Filter

namespace OwnedHandles.Tracing

inductive Line
  | plain (level : Level)
  | structured (level : Level) (source : Source) (message : String) (fields : Fields)
      (span : Option CallSpan)
  deriving DecidableEq, Repr

structure Subscriber where
  filter : Filter
  structured : Bool
  deriving DecidableEq, Repr

namespace Subscriber

def structuredSettings : List String := ["1", "true"]

def ofSettings (filter structured : Option String) : Subscriber :=
  { filter := .ofSetting filter
    structured := structured.any structuredSettings.contains }

def greeting (s : Subscriber) : Event :=
  { level := .info, source := .tracer, message := "Structured tracing initialized"
    fields := [("json", .truth s.structured)] }

def line (s : Subscriber) (e : Event) (span : Option CallSpan) : Line :=
  if s.structured then .structured e.level e.source e.message e.fields span
  else .plain e.level

def spanEnd : Event := { level := .debug, source := .tracer, message := "close" }

/-- The lines for one event: its own if it is wanted, and one for the end of its span. -/
def linesOf (s : Subscriber) (e : Event) : List Line :=
  let span := if s.filter.wantsSpan then e.span else none
  let own := if s.filter.wantsEvent e then [s.line e span] else []
  let ending := if e.closesSpan && span.isSome then [s.line spanEnd span] else []
  own ++ ending

def lines (s : Subscriber) (events : List Event) : List Line := events.flatMap s.linesOf

def installations (attempts : Nat) : List Bool :=
  (List.range attempts).map fun n => n == 0

def written (s : Subscriber) (attempts : Nat) (events : List Event) : List Line :=
  if attempts = 0 then [] else s.lines (s.greeting :: events)

end Subscriber

end OwnedHandles.Tracing
