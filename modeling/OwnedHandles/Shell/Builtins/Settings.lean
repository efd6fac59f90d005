import OwnedHandles.Shell.Builtins.Basic

namespace OwnedHandles.Shell.Builtin

open Kernel

def markAll (command : String) (mark : Bytes → Frame → Frame) : List Bytes → Run Nat
  | [] => return 0
  | a :: rest => do
    let (name, value) := Frame.splitEntry a
    if !Ascii.isName name then badName command name
    if a.contains Ascii.equals then Run.assign (command ++ ": ") name value
    modify (mark name)
    markAll command mark rest

def listMarked (command : String) (isMarked : Variable → Bool) : Run Nat := do
  let marked := (← get).bindings.filter fun v => isMarked v.2
  let sorted := marked.mergeSort fun a b => !Environment.keyBefore b.1 a.1
  output command (sorted.flatMap fun v =>
    Bytes.ofString (command ++ " ") ++ v.1
      ++ (v.2.value.map fun value => Ascii.equals :: inQuotes value).getD []
      ++ [Ascii.lineFeed]) 0

def markOrList (command : String) (isMarked : Variable → Bool) (mark : Bytes → Frame → Frame)
    (arguments : List Bytes) : Run Nat :=
  if arguments.isEmpty ∨ arguments.head? = some (Bytes.ofString "-p") then
    listMarked command isMarked
  else markAll command mark (operands arguments)

def exportAll : List Bytes → Run Nat :=
  markOrList "export" Variable.exported fun name f => f.exportVariable name

def fixAll : List Bytes → Run Nat :=
  markOrList "readonly" Variable.fixed fun name f => f.fixVariable name

def ownAll : List Bytes → Run Nat
  | [] => return 0
  | a :: rest => do
    let (name, value) := Frame.splitEntry a
    if !Ascii.isName name then badName "local" name
    let before := (← get).bindings.lookup name
    modify fun f => { f with own := f.own.map fun kept => (name, before) :: kept }
    if a.contains Ascii.equals then Run.assign "local: " name value
    ownAll rest

def makeOwn (arguments : List Bytes) : Run Nat := do
  if (← get).own.isNone then die "local" "not in a function"
  ownAll arguments

def unsetVariables : List Bytes → Run Nat
  | [] => return 0
  | a :: rest => do
    if !Ascii.isName a then badName "unset" a
    if (← get).isFixed a then die "unset" (Text.decodeLossy a ++ ": is read only")
    modify fun f => f.unsetVariable a
    unsetVariables rest

def unsetFunctions (names : List Bytes) : Run Nat := do
  modify fun f => { f with functions := f.functions.filter fun g => !names.contains g.1 }
  return 0

def unset (arguments : List Bytes) : Run Nat :=
  match arguments with
  | option :: rest =>
    if option = Bytes.ofString "-f" then unsetFunctions rest
    else if option = Bytes.ofString "-v" then unsetVariables rest
    else unsetVariables (operands arguments)
  | [] => return 0

def shift (arguments : List Bytes) : Run Nat := do
  let n ← countArgument "shift" arguments
  let f ← get
  if f.positional.length < n then die "shift" "can't shift that many"
  set { f with positional := f.positional.drop n }
  return 0

def setLetters (on : Bool) : Bytes → Run Unit
  | [] => return ()
  | letter :: rest => do
    match (← get).options.set on letter with
    | some options => modify fun f => { f with options }
    | none =>
      let sign := if on then "-" else "+"
      die "set" ("Illegal option " ++ sign ++ Text.decodeLossy [letter])
    setLetters on rest

def setOptions : List Bytes → Run (Option (List Bytes))
  | [] => return none
  | a :: rest => do
    if a = Bytes.ofString "--" then return some rest
    match a with
    | [Ascii.minus] => return if rest.isEmpty then none else some rest
    | sign :: letters =>
      if sign ≠ Ascii.minus ∧ sign ≠ Ascii.plus then return some (a :: rest)
      let on := sign = Ascii.minus
      match letters, rest with
      | [0x6f], name :: rest =>
        match Options.letter? name with
        | some letter => setLetters on [letter]
        | none => die "set" ("Illegal option " ++ (if on then "-" else "+") ++ "o "
            ++ Text.decodeLossy name)
        setOptions rest
      | [0x6f], [] => return none
      | letters, rest =>
        setLetters on letters
        setOptions rest
    | [] => return some (a :: rest)

/-- Options, and behind them the positional parameters if there are any or they are none. -/
def setFrame (arguments : List Bytes) : Run Nat := do
  if let some positional ← setOptions arguments then
    modify fun f => { f with positional }
  return 0

def currentPath : Run Bytes := do
  let s ← getThe State
  return Walk.pathOf s (((s.process? (← read)).map Process.directory).getD 0)

def printDirectory : Run Nat := do output "pwd" ((← currentPath) ++ [Ascii.lineFeed]) 0

def lastDirectory : Bytes := Bytes.ofString "OLDPWD"

def directoryFor (arguments : List Bytes) : Run (Option (Bytes × Bool)) := do
  let f ← get
  match arguments with
  | [] => return (f.valueOf? (Bytes.ofString "HOME")).map fun home => (home, false)
  | [] :: _ => return none
  | a :: _ =>
    if a = [Ascii.minus] then
      return some ((f.valueOf? lastDirectory).getD (← currentPath), true)
    return some (a, false)

def changeDirectory (arguments : List Bytes) : Run Nat := do
  match ← directoryFor (operands arguments) with
  | none => return 0
  | some (path, isTold) =>
    let s ← getThe State
    let pid ← read
    match Walk.find s pid true path with
    | .ok i =>
      if s.isDirectory i ∧ (s.inode i).mode.ownerExecute then
        let before ← currentPath
        set (s.modifyProcess pid fun p => { p with directory := i })
        let here ← currentPath
        modify fun f => (f.setVariable lastDirectory before).setVariable (Bytes.ofString "PWD") here
        return ← output "cd" (if isTold then here ++ [Ascii.lineFeed] else []) 0
      say "cd" ("can't cd to " ++ Text.decodeLossy path)
      return 2
    | .error _ =>
      say "cd" ("can't cd to " ++ Text.decodeLossy path)
      return 2

def maskLetters (m : Mode) : String :=
  let part (who : String) (shift : Nat) : String :=
    let has (k : Nat) (letter : String) : String :=
      if m.getLsbD (shift + k) then "" else letter
    who ++ "=" ++ has 2 "r" ++ has 1 "w" ++ has 0 "x"
  part "u" 6 ++ "," ++ part "g" 3 ++ "," ++ part "o" 0

def creationMask (arguments : List Bytes) : Run Nat := do
  match arguments with
  | [] =>
    match ← Run.sys Sys.creationMask with
    | .ok m => output "umask" (Bytes.ofString (Mode.octal m ++ "\n")) 0
    | .error _ => return 1
  | a :: _ =>
    if a = Bytes.ofString "-S" then
      match ← Run.sys Sys.creationMask with
      | .ok m => return ← output "umask" (Bytes.ofString (maskLetters m ++ "\n")) 0
      | .error _ => return 1
    if a ≠ [] ∧ a.all Ascii.isOctalDigit then
      let n := a.foldl (fun n d => 8 * n + (d.toNat - 48)) 0
      let pid ← read
      modifyThe State fun s =>
        s.modifyProcess pid fun p => { p with creationMask := BitVec.ofNat 12 (n % 512) }
      return 0
    let what := if (a.head?.map Ascii.isDigit).getD false then "number" else "mode"
    die "umask" ("Illegal " ++ what ++ ": " ++ Text.decodeLossy a)

end OwnedHandles.Shell.Builtin
