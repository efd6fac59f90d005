import OwnedHandles.Limits
import OwnedHandles.Program

namespace OwnedHandles.ExitCode

structure Names where
  first : Int32
  last : Int32
  entries : List String
  deriving DecidableEq, Repr

def sysexits : Names where
  first := Limits.sysexitsFirst
  last := Limits.sysexitsLast
  entries :=
    ["command line usage error",
     "data format error",
     "cannot open input",
     "addressee unknown",
     "host name unknown",
     "service unavailable",
     "internal software error",
     "system error",
     "critical OS file missing",
     "can't create (user) output file",
     "input/output error",
     "temp failure; user is invited to retry",
     "remote error in protocol",
     "permission denied",
     "configuration error"]

def testResults : Names where
  first := Limits.testExitFirst
  last := Limits.testExitLast
  entries :=
    ["undefined test",
     "test failed",
     "test unresolved",
     "test untested",
     "unsupported test"]

def okName : String := "ok"

/-- The distance between two codes, which has to be a code itself. -/
def distance (a b : Int32) : Program Int32 :=
  if a.toBitVec.ssubOverflow b.toBitVec then .abort "attempt to subtract with overflow"
  else return a - b

/-- A distance as a place in a table. One below zero is far behind the end of any table. -/
def place (distance : Int32) : Nat := (distance.toInt % UInt64.size).toNat

def entry (entries : List String) (i : Nat) : Program String :=
  match entries[i]? with
  | some name => return name
  | none => .abort ("index out of bounds: the len is " ++ toString entries.length
      ++ " but the index is " ++ toString i)

def Names.find (n : Names) (code : Int32) : Program (Option String) := do
  if n.first ≤ code ∧ code ≤ n.last then
    return some (← entry n.entries (place (← distance code n.first)))
  else return none

def text (code : Int32) : Program (Option String) := do
  if code = 0 then return some okName
  match ← sysexits.find code with
  | some name => return some name
  | none => testResults.find code

def pretty (code : Int32) : Program String := do
  match ← text code with
  | some name => return name ++ "(" ++ toString code ++ ")"
  | none => return toString code

end OwnedHandles.ExitCode
