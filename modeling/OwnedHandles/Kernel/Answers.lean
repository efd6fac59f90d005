import OwnedHandles.Kernel.Exec
import OwnedHandles.Kernel.Memory
import OwnedHandles.Launch.Plan

/-!
Answering the calls of programs. A child starts at the latest when its parent asks about it or
waits for something that others have to do.
-/

namespace OwnedHandles.Kernel

inductive Reply (c : Call)
  | answered (a : c.Answer) (s : State)
  | blocked (s : State)
  | gone (s : State)

inductive Outcome (α : Type)
  | done (a : α)
  | aborted (message : String)
  | unfinished
  | blocked
  | gone

structure Finished (α : Type) where
  outcome : Outcome α
  events : List Event
  state : State

namespace Reply

def ofSys {c : Call} {α : Type} (s : State) (r : Sys α) (f : Except Errno α → c.Answer) :
    Reply c :=
  match r.run s with
  | (.ok a, s) => answered (f (.ok a)) s
  | (.error (.errno e), s) => answered (f (.error e)) s
  | (.error .blocked, s) => blocked s

def isBlocked {c : Call} : Reply c → Bool
  | blocked _ => true
  | _ => false

/-- No answer comes back to a process that has gone in the meantime. -/
def reaching {c : Call} (pid : Pid) : Reply c → Reply c
  | answered a s => if s.hasGone pid then gone s else answered a s
  | reply => reply

end Reply

namespace State

def run {α : Type} (answer : State → (c : Call) → Reply c) (s : State) (events : List Event) :
    Program α → Finished α
  | .done a => ⟨.done a, events.reverse, s⟩
  | .abort m => ⟨.aborted m, events.reverse, s⟩
  | .unfinished => ⟨.unfinished, events.reverse, s⟩
  | .note e p => run answer s (e :: events) p
  | .call c next =>
    match answer s c with
    | .answered a s => run answer s events (next a)
    | .blocked s => ⟨.blocked, events.reverse, s⟩
    | .gone s => ⟨.gone, events.reverse, s⟩

def environmentFor (s : State) (pid : Pid) (given : Option ArgumentArray) : List Bytes :=
  match given with
  | some a => a.strings
  | none => ((s.process? pid).map Process.environment).getD []

/-- Answers a call of a process for itself, whatever other processes are up to. -/
def answerAlone (pid : Pid) (s : State) : (c : Call) → Reply c
  | .probe path => .ofSys s (Sys.probe pid path) fun r => r.toOption.join
  | .openFile path flags mode => .ofSys s (Sys.openFile pid path flags mode) id
  | .changeMode fd mode => .ofSys s (Sys.changeMode pid fd mode) id
  | .makeFifo path mode => .ofSys s (Sys.makeFifo pid path mode) id
  | .unlink path => .ofSys s (Sys.unlink pid path) id
  | .read fd count => .ofSys s (Sys.read pid fd count) id
  | .write fd data => .ofSys s (Sys.write pid fd data) id
  | .close fd => .ofSys s (Sys.close pid fd) id
  | .closesOnExec fd => .ofSys s (Sys.closesOnExec pid fd) id
  | .setCloseOnExec fd on => .ofSys s (Sys.setCloseOnExec pid fd on) id
  | .duplicate fd target => .ofSys s (Sys.duplicate pid fd target) id
  | .makePipe => .ofSys s (Sys.makePipe pid) id
  | .mapMemory size _ writable fd offset =>
    .ofSys s (Sys.mapMemory pid size writable fd offset) id
  | .unmapMemory address _ => .ofSys s (Sys.unmapMemory address) id
  | .setMask mask => .ofSys s (Sys.setMask pid mask) id
  | .setDisposition signal next => .ofSys s (Sys.setDisposition pid signal next) id
  | .fork task => .ofSys s (Sys.fork pid task) id
  | .wait child => .ofSys s (Sys.wait pid child) id
  | .kill target signal => .ofSys s (Sys.kill target signal) id
  | .exec arguments environment =>
    match s.become pid arguments.strings (s.environmentFor pid environment) with
    | .ok s => .gone s
    | .error e => .answered e s
  | .exit status => .gone (s.finish pid (WaitStatus.exitWord status))
  | .pause _ => .blocked s

def start (s : State) (p : Process) : State :=
  match p.life with
  | .ready task =>
    let s := s.modifyProcess p.pid fun p => { p with life := .running }
    let f := s.run (answerAlone p.pid) [] task.main
    match f.outcome with
    | .gone => f.state
    | _ => f.state.stall p.pid
  | _ => s

def isReady (p : Process) : Bool :=
  match p.life with
  | .ready _ => true
  | _ => false

def startAll (s : State) : State :=
  (s.processes.filter isReady).foldl start s

def concernsOthers : Call → Bool
  | .wait _ | .kill .. => true
  | _ => false

/-- Answers a call of a process among others. What waits for others lets them start, and then
sleep out. -/
def answer (pid : Pid) (s : State) (c : Call) : Reply c :=
  let s := if concernsOthers c then s.startAll else s
  let reply := s.answerAlone pid c
  if !reply.isBlocked then reply.reaching pid
  else
    let reply := s.startAll.answerAlone pid c
    if !reply.isBlocked then reply.reaching pid
    else (s.startAll.wakeAll.answerAlone pid c).reaching pid

end State

end OwnedHandles.Kernel
