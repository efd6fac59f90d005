namespace OwnedHandles

inductive Signal
  | SIGHUP | SIGINT | SIGQUIT | SIGILL | SIGTRAP | SIGABRT | SIGBUS | SIGFPE | SIGKILL | SIGUSR1
  | SIGSEGV | SIGUSR2 | SIGPIPE | SIGALRM | SIGTERM | SIGSTKFLT | SIGCHLD | SIGCONT | SIGSTOP
  | SIGTSTP | SIGTTIN | SIGTTOU | SIGURG | SIGXCPU | SIGXFSZ | SIGVTALRM | SIGPROF | SIGWINCH
  | SIGIO | SIGPWR | SIGSYS
  deriving DecidableEq, Repr, Inhabited

namespace Signal

def all : List Signal :=
  [SIGHUP, SIGINT, SIGQUIT, SIGILL, SIGTRAP, SIGABRT, SIGBUS, SIGFPE, SIGKILL, SIGUSR1, SIGSEGV,
   SIGUSR2, SIGPIPE, SIGALRM, SIGTERM, SIGSTKFLT, SIGCHLD, SIGCONT, SIGSTOP, SIGTSTP, SIGTTIN,
   SIGTTOU, SIGURG, SIGXCPU, SIGXFSZ, SIGVTALRM, SIGPROF, SIGWINCH, SIGIO, SIGPWR, SIGSYS]

theorem mem_all (s : Signal) : s ∈ all := by cases s <;> decide

def number : Signal → Nat
  | SIGHUP => 1 | SIGINT => 2 | SIGQUIT => 3 | SIGILL => 4 | SIGTRAP => 5 | SIGABRT => 6
  | SIGBUS => 7 | SIGFPE => 8 | SIGKILL => 9 | SIGUSR1 => 10 | SIGSEGV => 11 | SIGUSR2 => 12
  | SIGPIPE => 13 | SIGALRM => 14 | SIGTERM => 15 | SIGSTKFLT => 16 | SIGCHLD => 17
  | SIGCONT => 18 | SIGSTOP => 19 | SIGTSTP => 20 | SIGTTIN => 21 | SIGTTOU => 22 | SIGURG => 23
  | SIGXCPU => 24 | SIGXFSZ => 25 | SIGVTALRM => 26 | SIGPROF => 27 | SIGWINCH => 28
  | SIGIO => 29 | SIGPWR => 30 | SIGSYS => 31

def name : Signal → String
  | SIGHUP => "SIGHUP" | SIGINT => "SIGINT" | SIGQUIT => "SIGQUIT" | SIGILL => "SIGILL"
  | SIGTRAP => "SIGTRAP" | SIGABRT => "SIGABRT" | SIGBUS => "SIGBUS" | SIGFPE => "SIGFPE"
  | SIGKILL => "SIGKILL" | SIGUSR1 => "SIGUSR1" | SIGSEGV => "SIGSEGV" | SIGUSR2 => "SIGUSR2"
  | SIGPIPE => "SIGPIPE" | SIGALRM => "SIGALRM" | SIGTERM => "SIGTERM"
  | SIGSTKFLT => "SIGSTKFLT" | SIGCHLD => "SIGCHLD" | SIGCONT => "SIGCONT"
  | SIGSTOP => "SIGSTOP" | SIGTSTP => "SIGTSTP" | SIGTTIN => "SIGTTIN" | SIGTTOU => "SIGTTOU"
  | SIGURG => "SIGURG" | SIGXCPU => "SIGXCPU" | SIGXFSZ => "SIGXFSZ" | SIGVTALRM => "SIGVTALRM"
  | SIGPROF => "SIGPROF" | SIGWINCH => "SIGWINCH" | SIGIO => "SIGIO" | SIGPWR => "SIGPWR"
  | SIGSYS => "SIGSYS"

def description : Signal → String
  | SIGHUP => "Hangup" | SIGINT => "Interrupt" | SIGQUIT => "Quit"
  | SIGILL => "Illegal instruction" | SIGTRAP => "Trace/breakpoint trap" | SIGABRT => "Aborted"
  | SIGBUS => "Bus error" | SIGFPE => "Floating point exception" | SIGKILL => "Killed"
  | SIGUSR1 => "User defined signal 1" | SIGSEGV => "Segmentation fault"
  | SIGUSR2 => "User defined signal 2" | SIGPIPE => "Broken pipe" | SIGALRM => "Alarm clock"
  | SIGTERM => "Terminated" | SIGSTKFLT => "Stack fault" | SIGCHLD => "Child exited"
  | SIGCONT => "Continued" | SIGSTOP => "Stopped (signal)" | SIGTSTP => "Stopped"
  | SIGTTIN => "Stopped (tty input)" | SIGTTOU => "Stopped (tty output)"
  | SIGURG => "Urgent I/O condition" | SIGXCPU => "CPU time limit exceeded"
  | SIGXFSZ => "File size limit exceeded" | SIGVTALRM => "Virtual timer expired"
  | SIGPROF => "Profiling timer expired" | SIGWINCH => "Window changed"
  | SIGIO => "I/O possible" | SIGPWR => "Power failure" | SIGSYS => "Bad system call"

def ofNumber? (n : Nat) : Option Signal := all.find? fun s => s.number == n

def ofName? (s : String) : Option Signal := all.find? fun sig => sig.name == s

theorem ofNumber?_number (s : Signal) : ofNumber? s.number = some s := by cases s <;> rfl

theorem number_eq {n : Nat} {s : Signal} (h : ofNumber? n = some s) : s.number = n := by
  simpa using List.find?_some h

theorem number_injective {s t : Signal} (h : s.number = t.number) : s = t := by
  have := ofNumber?_number t
  rw [← h, ofNumber?_number] at this
  exact Option.some.inj this

end Signal

/-- Signals by number: the bit of signal `n` is bit `n - 1`. -/
abbrev SignalMask := BitVec 64

namespace SignalMask

def none : SignalMask := 0#64

def full : SignalMask := BitVec.allOnes 64

def holds (m : SignalMask) (n : Nat) : Bool := m.getLsbD (n - 1)

def without (m : SignalMask) (n : Nat) : SignalMask := m &&& ~~~(1#64 <<< (n - 1))

end SignalMask

inductive Disposition
  | byDefault
  | ignored
  | handled (handler : Nat)
  deriving DecidableEq, Repr, Inhabited

inductive DefaultAction
  | terminate | ignore | stop | resume
  deriving DecidableEq, Repr

def DefaultAction.ofNumber (n : Nat) : DefaultAction :=
  if n = 17 ∨ n = 23 ∨ n = 28 then .ignore
  else if n = 18 then .resume
  else if 19 ≤ n ∧ n ≤ 22 then .stop
  else .terminate

abbrev Dispositions := Nat → Disposition

namespace Dispositions

def set (d : Dispositions) (n : Nat) (next : Disposition) : Dispositions :=
  fun m => if m = n then next else d m

@[simp] theorem set_same (d : Dispositions) (n : Nat) (next : Disposition) :
    d.set n next n = next := by
  simp [set]

@[simp] theorem set_other (d : Dispositions) {m n : Nat} (next : Disposition) (h : m ≠ n) :
    d.set n next m = d m := by
  simp [set, h]

/-- A new image has no handlers: what had one starts from the default. -/
def afterExec (d : Dispositions) : Dispositions := fun n =>
  match d n with
  | .handled _ => .byDefault
  | kept => kept

end Dispositions

end OwnedHandles
