namespace OwnedHandles

inductive Level
  | error | warn | info | debug | trace
  deriving DecidableEq, Repr, Inhabited

namespace Level

def name : Level → String
  | error => "ERROR" | warn => "WARN" | info => "INFO" | debug => "DEBUG" | trace => "TRACE"

def rank : Level → Nat
  | error => 1 | warn => 2 | info => 3 | debug => 4 | trace => 5

end Level

inductive Source
  | tracer | descriptor | fifo | mapping | launch | handle | executable | pipes | signals
  deriving DecidableEq, Repr

def Source.target : Source → String
  | tracer => "posix_system::monitoring::tracer"
  | descriptor => "posix_system::fs::descriptor"
  | fifo => "posix_system::fs::fifo"
  | mapping => "posix_system::memory::map_file"
  | launch => "posix_system::process::launch"
  | handle => "posix_system::process::handle"
  | executable => "posix_system::process::executable"
  | pipes => "posix_system::process::pipes"
  | signals => "posix_system::process::signals"

inductive FieldValue
  | text (s : String)
  | number (n : Int)
  | truth (b : Bool)
  deriving DecidableEq, Repr

abbrev Fields := List (String × FieldValue)

structure CallSpan where
  call : String
  target : String
  result : Option String := none
  error : Option String := none
  deriving DecidableEq, Repr

namespace CallSpan

def begin (call target : String) : CallSpan := ⟨call, target, none, none⟩

def succeeded (s : CallSpan) : CallSpan := { s with result := some "success" }

def failed (s : CallSpan) (error : String) : CallSpan :=
  { s with result := some "error", error := some error }

def fields (s : CallSpan) : Fields :=
  [("call", .text s.call), ("target", .text s.target)]
    ++ (s.result.map fun r => ("result", FieldValue.text r)).toList
    ++ (s.error.map fun e => ("error", FieldValue.text e)).toList

end CallSpan

structure Event where
  level : Level
  source : Source
  message : String
  fields : Fields := []
  span : Option CallSpan := none
  closesSpan : Bool := false
  deriving DecidableEq, Repr

def CallSpan.completed (s : CallSpan) : Event :=
  { level := .debug, source := .tracer, message := "os call completed"
    fields := [("call", .text s.call)], span := some s, closesSpan := true }

end OwnedHandles
