import OwnedHandles.Shell.Builtins
import OwnedHandles.Shell.Expansion

/-!
Evaluating commands. A subshell is the process itself with everything put back behind it, and the
parts of a pipeline run one after the other.
-/

namespace OwnedHandles.Shell

open Kernel

namespace Run

def attempt {α : Type} (r : Run α) : Run (Except Stop α) :=
  ExceptT.mk do return .ok (← r.run)

def resume {α : Type} : Except Stop α → Run α
  | .ok a => return a
  | .error stop => throw stop

def keepingHandles {α : Type} (r : Run α) : Run α := do
  let pid ← read
  let saved := (← getThe State).handles pid
  let result ← attempt r
  modifyThe State fun s => s.restoreHandles pid saved
  resume result

/-- A subshell starts with no scripts for signals, and with no children of its own. -/
def enterSubshell : Run Unit := do
  let pid ← read
  modifyThe State fun s => s.modifyProcess pid fun p =>
    { p with dispositions := p.dispositions.afterExec }
  modify fun f => { f with traps := f.traps.filter fun t => t.2 = [], due := [], jobs := [] }

def subshell (r : Run Nat) : Run Nat := do
  let pid ← read
  let frame ← get
  let before := (← getThe State).process? pid
  let result ← attempt (keepingHandles do
    enterSubshell
    r)
  modifyThe State fun s => s.modifyProcess pid fun p =>
    match before with
    | some b =>
      { p with dispositions := b.dispositions, creationMask := b.creationMask
               directory := b.directory }
    | none => p
  set frame
  match result with
  | .ok status => return status % 256
  | .error (.ending (.exited status)) => return status % 256
  | .error (.ending e) => throw (.ending e)
  | .error (.leaveFunction status) => return status % 256
  | .error .mistake => return 2
  | .error _ => return 0

end Run

namespace Evaluation

def hiddenOutput (fd : Fd) : Run InodeId := do
  let pid ← read
  let s ← getThe State
  let (s, i) := s.addInode { content := .ofBytes [], mode := 0o600#12 }
  let (s, id) := s.addOpenFile { inode := i, flags := OpenFlags.readWrite ||| .append }
  set (s.putHandle pid fd ⟨id, false⟩)
  return i

def hiddenInput (fd : Fd) (i : InodeId) : Run Unit := do
  let pid ← read
  let s ← getThe State
  let (s, id) := s.addOpenFile { inode := i, flags := 0#32 }
  set (s.putHandle pid fd ⟨id, false⟩)

def contentOf (i : InodeId) : Run Bytes := do
  match (← getThe State).content i with
  | .regular data _ => return data.data.toList
  | _ => return []

structure Inner where
  eval : Command → Run Nat
  launch : Launcher

def lines (inner : Inner) (problem : Option Problem) : List Command → Nat → Run Nat
  | [], status => do
    match problem with
    | some p =>
      modify fun f => { f with line := p.line }
      Run.die p.message
    | none => return status
  | c :: cs, _ => do lines inner problem cs (← inner.eval c)

def script (inner : Inner) (text : Bytes) : Run Nat := do
  let s := Script.ofText text
  match s.lines, s.problem with
  | [], none => return 0
  | cs, problem => lines inner problem cs (← get).status

def endStatus? : Except Stop Nat → Option Nat
  | .ok status => some status
  | .error (.ending (.exited status)) => some status
  | .error (.leaveFunction status) => some status
  | .error .mistake => some 2
  | .error _ => none

/-- Runs the script that is kept for the end, behind everything else. Its exit, if it has one,
counts. -/
def withLastScript (inner : Inner) (r : Run Nat) : Run Nat := do
  let result ← Run.attempt r
  match (← get).traps.lookup 0, endStatus? result with
  | some text, some status =>
    modify fun f => { f with status, traps := f.traps.filter fun t => t.1 ≠ 0 }
    let _ ← script inner text
    Run.exit status
  | _, _ => Run.resume result

def subshell (inner : Inner) (r : Run Nat) : Run Nat := Run.subshell (withLastScript inner r)

/-- Runs the scripts for signals that have come; the status of the last command stays. -/
def runDue (inner : Inner) : List Nat → Run Unit
  | [] => return ()
  | signal :: rest => do
    let f ← get
    if let some text := f.traps.lookup signal then
      let _ ← script inner text
      modify fun g => { g with status := f.status }
    runDue inner rest

def tested (inner : Inner) (c : Command) : Run Nat := do
  let before := (← get).tested
  modify fun f => { f with tested := true }
  let result ← Run.attempt (inner.eval c)
  modify fun f => { f with tested := before }
  Run.resume result

def reading {α : Type} (source : Option String) (r : Run α) : Run α := do
  let before := (← get).source
  modify fun f => { f with source }
  let result ← Run.attempt r
  modify fun f => { f with source := before }
  Run.resume result

def outputOf (inner : Inner) (text : Bytes) : Run Bytes :=
  Run.keepingHandles do
    let i ← hiddenOutput 1
    let status ← subshell inner do
      modify fun f => { f with tested := false }
      script inner text
    modify fun f => { f with outputStatus := status }
    contentOf i

def wordingFor (creating : Bool) (e : Errno) : String :=
  if e = .ENOENT ∨ e = .ENOTDIR then
    if creating then "Directory nonexistent" else "No such file"
  else e.toolWording

def provide (fd : Fd) (text : Bytes) : Run Unit := do
  let s ← getThe State
  let (s, i) := s.addInode { content := .ofBytes text, mode := 0o600#12 }
  set s
  hiddenInput fd i

def redirect (inner : Inner) (r : Redirect) : Run (Except String Unit) := do
  let target ← Expansion.text (outputOf inner) r.target
  let name := Text.decodeLossy target
  let opening (flags : OpenFlags) : Run (Except String Unit) := do
    match ← Run.sys fun pid => Sys.openFile pid target flags 0o666#12 with
    | .error e =>
      let creating := flags.has .create
      return .error ((if creating then "cannot create " else "cannot open ") ++ name ++ ": "
        ++ wordingFor creating e)
    | .ok fd =>
      if fd ≠ r.handle then
        let _ ← Run.sys fun pid => Sys.duplicate pid fd r.handle
        let _ ← Run.sys fun pid => Sys.close pid fd
      return .ok ()
  match r.kind with
  | .input => opening 0#32
  | .output => opening (.writeOnly ||| .create ||| .truncate)
  | .append => opening (.writeOnly ||| .create ||| .append)
  | .both => opening (.readWrite ||| .create)
  | .here =>
    provide r.handle target
    return .ok ()
  | .copy =>
    if target = [Ascii.minus] then
      let _ ← Run.sys fun pid => Sys.close pid r.handle
      return .ok ()
    match (Ascii.nat? target).filter fun _ => target.length = 1 with
    | none => Run.die "Syntax error: Bad fd number"
    | some fd =>
      match ← Run.sys fun pid => Sys.duplicate pid fd r.handle with
      | .ok () => return .ok ()
      | .error e => return .error (name ++ ": " ++ e.toolWording)

def redirectAll (inner : Inner) : List Redirect → Run (Except String Unit)
  | [] => return .ok ()
  | r :: rs => do
    match ← redirect inner r with
    | .error m => return .error m
    | .ok () => redirectAll inner rs

/-- Runs behind redirections. Where one can not be made, it does not run, and `failed` decides. -/
def redirected (inner : Inner) (rs : List Redirect) (failed : Run Nat) (body : Run Nat) :
    Run Nat :=
  if rs.isEmpty then body
  else Run.keepingHandles do
    match ← redirectAll inner rs with
    | .error m =>
      Run.say m
      failed
    | .ok () => body

def assignAll (inner : Inner) : List (Bytes × Word) → Run (List (Bytes × Bytes))
  | [] => return []
  | (name, w) :: rest => do
    let value ← Expansion.text (outputOf inner) w
    Run.assign "" name value
    return (name, value) :: (← assignAll inner rest)

def assigned (inner : Inner) (assignments : List (Bytes × Word)) (body : Run Nat) : Run Nat :=
  if assignments.isEmpty then body
  else do
    let bindings := (← get).bindings
    let before := assignments.map fun a => (a.1, bindings.lookup a.1)
    let _ ← assignAll inner assignments
    modify fun f => assignments.foldl (fun f a => f.exportVariable a.1) f
    let result ← Run.attempt body
    modify fun f => before.foldl (fun f b => f.restoreVariable b.1 b.2) f
    Run.resume result

def trace (words : List Bytes) : Run Unit := do
  if (← get).options.trace then
    let line := (words.intersperse [Ascii.space]).flatten
    let _ ← Run.lift (Image.put 2 (Bytes.ofString "+ " ++ line ++ [Ascii.lineFeed]))

def farewell (signal : Nat) : String :=
  match Signal.ofNumber? signal with
  | some s => s.description
  | none => "Real-time signal " ++ toString (signal - 34)

def childStatus (word : BitVec 32) : Run Nat := do
  let signal := (word &&& 0x7f#32).toNat
  if signal = 0 then return ((word >>> 8) &&& 0xff#32).toNat
  else
    if signal ≠ Signal.SIGINT.number ∧ signal ≠ Signal.SIGPIPE.number then
      Run.lift (Image.warn (farewell signal))
    return 128 + signal

def launch (inner : Inner) (path : Bytes) (arguments : List Bytes) :
    Run (Except Errno Nat) := do
  let pid ← read
  let environment := (← get).environment
  let (child, s) := (← getThe State).addChild pid
  let (result, s) := (inner.launch child path arguments environment).run s
  let ended := s.process? child
  let delay := (ended.map Process.delay).getD .none
  let s := (s.closeHandles child fun _ => true).removeProcess child
  set (if delay = .sleep then s.delaySleep pid else s)
  match result, ended.map Process.life with
  | .error e, _ => return .error e
  | .ok (.exited status), _ =>
    if delay = .stop then throw (.ending .blocked)
    return .ok (status % 256)
  | .ok .killed, some (.ended word) => return .ok (← childStatus word)
  | .ok _, _ => throw (.ending .blocked)

def places (f : Frame) (name : Bytes) : List Bytes :=
  if name.contains Route.slash then [name]
  else
    let path := (f.valueOf? (Bytes.ofString "PATH")).getD []
    let directories := (String.splitOn (Text.decodeLossy path) ":").map Bytes.ofString
    directories.map fun d => if d = [] then name else d ++ Route.slash :: name

def launchFirst (inner : Inner) (arguments : List Bytes) (e : Errno) :
    List Bytes → Run (Except Errno Nat)
  | [] => return .error e
  | path :: rest => do
    match ← launch inner path arguments with
    | .error .EACCES => launchFirst inner arguments .EACCES rest
    | .error .ENOENT | .error .ENOTDIR => launchFirst inner arguments e rest
    | .error .ENOEXEC =>
      let status ← subshell inner do
        modify fun f => { f with name := path, positional := arguments.tail }
        match ← Run.sys fun pid => Sys.openFile pid path 0#32 0#12 with
        | .error _ => return 127
        | .ok fd =>
          match ← Run.lift (Image.readAll fd Image.rounds []) with
          | .error _ => return 127
          | .ok text => script inner text
      return .ok status
    | result => return result

/-- Runs a program; complaints about it start with `front`. A name without a slash that no
place has a program for counts as missing, whatever the reason. -/
def external (inner : Inner) (front : String) (name : Bytes) (arguments : List Bytes) :
    Run Nat := do
  match ← launchFirst inner (name :: arguments) .ENOENT (places (← get) name) with
  | .ok status => return status
  | .error e =>
    let missing := e = .ENOENT ∨ e = .ENOTDIR
    let what := if missing then "not found" else e.toolWording
    Run.say (front ++ Text.decodeLossy name ++ ": " ++ what)
    return if missing ∨ (e = .EACCES ∧ !name.contains Route.slash) then 127 else 126

/-- The variables that a function has made its own are put back behind it. -/
def function (inner : Inner) (body : Command) (arguments : List Bytes) : Run Nat := do
  let before ← get
  modify fun f => { f with positional := arguments, own := some [], loops := 0 }
  let result ← Run.attempt (inner.eval body)
  modify fun f =>
    let g := (f.own.getD []).foldl (fun g kept => g.restoreVariable kept.1 kept.2) f
    { g with positional := before.positional, own := before.own, loops := before.loops }
  match result with
  | .error (.leaveFunction status) => return status
  | r => Run.resume r

/-- A program that could be run, or any file where no places are searched. -/
def isProgram (s : State) (pid : Pid) (isPath : Bool) (path : Bytes) : Bool :=
  match Walk.find s pid true path with
  | .ok i => isPath || (s.content i).kind = .regular && (s.inode i).mode.ownerExecute
  | .error _ => false

def programOf (name : Bytes) : Run (Option Bytes) := do
  let s ← getThe State
  let pid ← read
  return (places (← get) name).find? (isProgram s pid (name.contains Route.slash))

/-- What a file to read in is called: one without a slash is looked for like a program. -/
def fileToRead (name : Bytes) : Run Bytes := do
  if name.contains Route.slash then return name
  let s ← getThe State
  let pid ← read
  let isThere (path : Bytes) : Bool := (Walk.find s pid true path).toOption.isSome
  match (places (← get) name).find? isThere with
  | some path => return path
  | none => Builtin.die "." (Text.decodeLossy name ++ ": not found")

def sourced (inner : Inner) (arguments : List Bytes) : Run Nat := do
  match arguments with
  | [] => return 0
  | name :: _ =>
    let path ← fileToRead name
    match ← Run.sys fun pid => Sys.openFile pid path 0#32 0#12 with
    | .error e => Builtin.die "." ("cannot open " ++ Text.decodeLossy path ++ ": "
        ++ wordingFor false e)
    | .ok fd =>
      let text ← Run.lift (Image.readAll fd Image.rounds [])
      let _ ← Run.sys fun pid => Sys.close pid fd
      reading (some (Text.decodeLossy path)) do
        match ← Run.attempt (script inner (text.toOption.getD [])) with
        | .error (.leaveFunction status) => return status
        | r => Run.resume r

inductive Meaning
  | keyword | function | special | builtin
  | program (path : Bytes)
  | nothing

def meaningOf (name : Bytes) : Run Meaning := do
  let text := Text.decodeLossy name
  if Parsing.keywords.contains text then return .keyword
  if ((← get).functions.lookup name).isSome then return .function
  if Builtin.isSpecial text then return .special
  if Builtin.isBuiltin text then return .builtin
  return match ← programOf name with
    | some path => .program path
    | none => .nothing

def describe (name : Bytes) : Run Nat := do
  let line (what : String) : Bytes := name ++ Bytes.ofString (what ++ "\n")
  match ← meaningOf name with
  | .keyword => Builtin.output "type" (line " is a shell keyword") 0
  | .function => Builtin.output "type" (line " is a shell function") 0
  | .special => Builtin.output "type" (line " is a special shell builtin") 0
  | .builtin => Builtin.output "type" (line " is a shell builtin") 0
  | .program path => Builtin.output "type" (line (" is " ++ Text.decodeLossy path)) 0
  | .nothing => Builtin.output "type" (line ": not found") 127

def describeAll : List Bytes → Run Nat
  | [] => return 0
  | name :: rest => do
    let status ← describe name
    let others ← describeAll rest
    return if others = 0 then status else others

def locate (name : Bytes) : Run Nat := do
  match ← meaningOf name with
  | .program path => Builtin.output "command" (path ++ [Ascii.lineFeed]) 0
  | .nothing => return 127
  | _ => Builtin.output "command" (name ++ [Ascii.lineFeed]) 0

def replaced (inner : Inner) (arguments : List Bytes) : Run Nat := do
  match arguments with
  | [] => return 0
  | name :: rest =>
    let found ← programOf name
    let status ← external inner "exec: " name rest
    if found.isSome then modify fun f => { f with traps := [] }
    Run.exit status

def forgiving (r : Run Nat) : Run Nat := do
  match ← Run.attempt r with
  | .error .mistake => return 2
  | result => Run.resume result

def ordinary (inner : Inner) (assignments : List (Bytes × Word)) (rs : List Redirect)
    (name : Bytes) (arguments : List Bytes) : Run Nat := do
  let text := Text.decodeLossy name
  let failed : Run Nat := if Builtin.isSpecial text then throw .mistake else return 2
  let kept (body : Run Nat) : Run Nat := redirected inner rs failed do
    let _ ← assignAll inner assignments
    body
  match text with
  | "exec" =>
    match ← redirectAll inner rs with
    | .error m => Run.die m
    | .ok () => assigned inner assignments (replaced inner arguments)
  | "eval" =>
    kept (reading (some "eval") (script inner (arguments.intersperse [Ascii.space]).flatten))
  | "." => kept (sourced inner arguments)
  | "type" => redirected inner rs failed (assigned inner assignments (describeAll arguments))
  | _ =>
    match Builtin.ofName? text with
    | some run =>
      if Builtin.isSpecial text then kept (run arguments)
      else redirected inner rs failed (assigned inner assignments (forgiving (run arguments)))
    | none =>
      redirected inner rs failed (assigned inner assignments (external inner "" name arguments))

def plain (inner : Inner) (assignments : List (Bytes × Word)) (rs : List Redirect) :
    List Bytes → Run Nat
  | [] => redirected inner rs (return 2) (assigned inner assignments (return 0))
  | name :: arguments =>
    let telling (r : Run Nat) := redirected inner rs (return 2) (assigned inner assignments r)
    match Text.decodeLossy name with
    | "command" | "-p" | "--" => plain inner assignments rs arguments
    | "-v" => telling (match arguments with
      | [] => return 0
      | a :: _ => locate a)
    | "-V" => telling (describeAll arguments)
    | _ => forgiving (ordinary inner assignments rs name arguments)

def named (inner : Inner) (assignments : List (Bytes × Word)) (rs : List Redirect)
    (name : Bytes) (arguments : List Bytes) : Run Nat := do
  match (← get).functions.lookup name with
  | some body =>
    redirected inner rs (return 2) (assigned inner assignments (function inner body arguments))
  | none =>
    if name = Bytes.ofString "command" then plain inner assignments rs arguments
    else ordinary inner assignments rs name arguments

def simple (inner : Inner) (line : Nat) (assignments : List (Bytes × Word)) (words : List Word)
    (rs : List Redirect) : Run Nat := do
  modify fun f => { f with line, outputStatus := 0 }
  match ← Expansion.allFields (outputOf inner) words with
  | name :: arguments =>
    trace (name :: arguments)
    named inner assignments rs name arguments
  | [] =>
    let values ← assignAll inner assignments
    if !values.isEmpty then trace (values.map fun v => v.1 ++ Ascii.equals :: v.2)
    redirected inner rs (return 2) (return (← get).outputStatus)

def withinLoop {α : Type} (r : Run α) : Run α := do
  let before := (← get).loops
  modify fun f => { f with loops := before + 1 }
  let result ← Run.attempt r
  modify fun f => { f with loops := before }
  Run.resume result

def roundEnd (status : Nat) : Except Stop Nat → Run (Bool × Nat)
  | .ok s => return (true, s)
  | .error (.leaveLoop n) => if n ≤ 1 then return (false, status) else throw (.leaveLoop (n - 1))
  | .error (.nextRound n) => if n ≤ 1 then return (true, status) else throw (.nextRound (n - 1))
  | .error stop => throw stop

def loop (inner : Inner) (untilHolds : Bool) (condition body : Command) :
    Nat → Nat → Run Nat
  | 0, status => return status
  | rounds + 1, status => do
    match ← roundEnd status (← Run.attempt (tested inner condition)) with
    | (false, status) => return status
    | (true, held) =>
      if (held = 0) = untilHolds then return status
      match ← roundEnd 0 (← Run.attempt (inner.eval body)) with
      | (false, status) => return status
      | (true, status) => loop inner untilHolds condition body rounds status

def forEach (inner : Inner) (name : Bytes) (body : Command) : List Bytes → Nat → Run Nat
  | [], status => return status
  | value :: rest, _ => do
    Run.assign "" name value
    match ← roundEnd 0 (← Run.attempt (inner.eval body)) with
    | (false, status) => return status
    | (true, status) => forEach inner name body rest status

def anyMatches (inner : Inner) (subject : Bytes) : List Word → Run Bool
  | [] => return false
  | w :: ws => do
    if (← Expansion.pattern (outputOf inner) w).matchesAll subject then return true
    anyMatches inner subject ws

def firstArm (inner : Inner) (subject : Bytes) :
    List (List Word × Command) → Run (Option Command)
  | [] => return none
  | (patterns, body) :: rest => do
    if ← anyMatches inner subject patterns then return some body
    firstArm inner subject rest

def pipeline (inner : Inner) (input : Option InodeId) : List Command → Run Nat
  | [] => return 0
  | c :: rest => do
    let (status, output) ← Run.keepingHandles do
      if let some i := input then hiddenInput 0 i
      let output ← if rest.isEmpty then pure none else some <$> hiddenOutput 1
      return (← subshell inner (inner.eval c), output)
    if rest.isEmpty then return status
    pipeline inner output rest

/-- Runs a command as a child that nobody waits for; it is done before the shell goes on. -/
def background (inner : Inner) (c : Command) : Run Nat := do
  let status ← subshell inner (inner.eval c)
  let s ← getThe State
  set { s with nextPid := s.nextPid + 1 }
  modify fun f => { f with jobs := (s.nextPid, status) :: f.jobs }
  return 0

def step (inner : Inner) : Command → Run Nat
  | .empty => return 0
  | .simple line assignments words rs => simple inner line assignments words rs
  | .pipeline negated parts => do
    let status ← match parts with
      | [c] => if negated then tested inner c else inner.eval c
      | cs => pipeline inner none cs
    return if negated then (if status = 0 then 1 else 0) else status
  | .both first second => do
    let status ← tested inner first
    if status = 0 then inner.eval second else return status
  | .either first second => do
    let status ← tested inner first
    if status = 0 then return status else inner.eval second
  | .sequence first second => do
    let _ ← inner.eval first
    inner.eval second
  | .background c => background inner c
  | .subshell c => subshell inner (inner.eval c)
  | .choose condition yes no => do
    if (← tested inner condition) = 0 then inner.eval yes else inner.eval no
  | .loop untilHolds condition body =>
    withinLoop (loop inner untilHolds condition body Image.rounds 0)
  | .forEach line name words body => do
    modify fun f => { f with line }
    let values ← match words with
      | some ws => Expansion.allFields (outputOf inner) ws
      | none => pure (← get).positional
    withinLoop (forEach inner name body values 0)
  | .caseOf line subject arms => do
    modify fun f => { f with line }
    let text ← Expansion.text (outputOf inner) subject
    match ← firstArm inner text arms with
    | some body => inner.eval body
    | none => return 0
  | .define name body => do
    modify fun f =>
      { f with functions := (name, body) :: f.functions.filter fun g => g.1 ≠ name }
    return 0
  | .redirected line c rs => do
    modify fun f => { f with line }
    redirected inner rs (return 2) (inner.eval c)

def mustSucceed : Command → Bool
  | .simple .. | .subshell _ => true
  | .pipeline negated _ => !negated
  | _ => false

def eval (launch : Launcher) : Nat → Command → Run Nat
  | 0, _ => throw .mistake
  | depth + 1, c => do
    let inner := { eval := eval launch depth, launch }
    let status ← step inner c
    let due := (← get).due
    modify fun f => { f with status, due := [] }
    runDue inner due
    let f ← get
    if mustSucceed c && status ≠ 0 && f.options.exitOnFailure && !f.tested then
      Run.exit status
    return status

end Evaluation

end OwnedHandles.Shell
