import OwnedHandles.Shell.Builtins.Basic

namespace OwnedHandles.Shell.Builtin

open Kernel

def signalNumber? (a : Bytes) : Option Nat :=
  match Ascii.nat? a with
  | some n => if n ≤ Sys.signalLimit then some n else none
  | none =>
    let name := (Text.decodeLossy a).toUpper
    if name = "EXIT" then some 0
    else (Signal.ofName? ("SIG" ++ name)).map Signal.number

def signalName (n : Nat) : String :=
  match n, Signal.ofNumber? n with
  | 0, _ => "EXIT"
  | _, some s => (s.name.drop 3).toString
  | _, none => toString n

def noteOwn (target : Pid) (signal : Nat) : Run Unit := do
  if target = (← read) && ((← get).traps.lookup signal).any (· ≠ []) then
    modify fun f => { f with due := f.due ++ [signal] }

def killOne (signal : Nat) (a : Bytes) : Run Nat := do
  match Ascii.int? a with
  | none =>
    say "kill" ("Illegal number: " ++ Text.decodeLossy a)
    return 2
  | some target =>
    match ← Run.sys fun _ => Sys.kill target signal with
    | .ok () =>
      if (← getThe State).hasGone (← read) then throw (.ending .killed)
      noteOwn target signal
      return 0
    | .error e =>
      say "kill" (e.toolWording ++ "\n")
      return 1

def killAll (signal : Nat) : List Bytes → Run Nat
  | [] => return 0
  | a :: rest => do
    let status ← killOne signal a
    let others ← killAll signal rest
    return if status = 0 then others else status

def killUsage : String :=
  "Usage: kill [-s sigspec | -signum | -sigspec] [pid | job]... or\nkill -l [exitstatus]"

def killTargets (signal : Nat) (targets : List Bytes) : Run Nat :=
  if targets.isEmpty then die "kill" killUsage else killAll signal targets

def kill (arguments : List Bytes) : Run Nat := do
  match arguments with
  | [] => die "kill" killUsage
  | option :: rest =>
    match Text.decodeLossy option, option, rest with
    | "-s", _, a :: targets =>
      match signalNumber? a with
      | some n => killTargets n targets
      | none => die "kill" ("invalid signal number or name: " ++ Text.decodeLossy a)
    | "-s", _, [] => die "kill" "No arg for -s option"
    | "--", _, targets => killTargets Signal.SIGTERM.number targets
    | _, Ascii.minus :: a, targets =>
      match signalNumber? a with
      | some n => killTargets n targets
      | none => die "kill" ("Illegal option -" ++ Text.decodeLossy (a.take 1))
    | _, _, _ => killTargets Signal.SIGTERM.number arguments

def setTrap (action : Option Bytes) (a : Bytes) : Run Nat := do
  match signalNumber? a with
  | none =>
    Run.lift (Image.warn ("trap: " ++ Text.decodeLossy a ++ ": bad trap"))
    return 1
  | some n =>
    modify fun f =>
      let others := f.traps.filter fun t => t.1 ≠ n
      { f with traps := (action.map fun script => (n, script)).toList ++ others }
    if n ≠ 0 then
      let next : Disposition := match action with
        | none => .byDefault
        | some [] => .ignored
        | some _ => .handled n
      let _ ← Run.sys fun pid => Sys.setDisposition pid n next
    return 0

def setTraps (action : Option Bytes) : List Bytes → Run Nat
  | [] => return 0
  | a :: rest => do
    match ← setTrap action a with
    | 0 => setTraps action rest
    | status => return status

def listTraps : Run Nat := do
  let traps := (← get).traps.mergeSort fun a b => a.1 ≤ b.1
  output "trap" (traps.flatMap fun t =>
    Bytes.ofString "trap -- " ++ inQuotes t.2
      ++ Bytes.ofString (" " ++ signalName t.1 ++ "\n")) 0

def trap (arguments : List Bytes) : Run Nat := do
  match operands arguments with
  | [] => listTraps
  | [a] => setTrap none a
  | action :: signals => setTraps (if action = [Ascii.minus] then none else some action) signals

/-- The statuses of commands in the background; of the last one that is asked for. -/
def wait (arguments : List Bytes) : Run Nat := do
  match arguments.getLast? with
  | none => return 0
  | some a =>
    let pid ← number "wait" a
    return ((← get).jobs.lookup (pid : Int)).getD 127

end OwnedHandles.Shell.Builtin
