import OwnedHandles.Call
import OwnedHandles.Event

namespace OwnedHandles

inductive Program (α : Type) : Type
  | done (a : α)
  /-- A broken assertion, with what it says. -/
  | abort (message : String)
  /-- A loop that has used up its rounds and is still going. -/
  | unfinished
  | note (e : Event) (next : Program α)
  | call (c : Call) (next : c.Answer → Program α)

namespace Program

protected def bind {α β : Type} : Program α → (α → Program β) → Program β
  | done a, f => f a
  | abort m, _ => abort m
  | unfinished, _ => unfinished
  | note e p, f => note e (p.bind f)
  | call c next, f => call c fun a => (next a).bind f

instance : Monad Program where
  pure := done
  bind := Program.bind

@[simp] theorem pure_eq {α : Type} (a : α) : (pure a : Program α) = done a := rfl

@[simp] theorem bind_eq {α β : Type} (p : Program α) (f : α → Program β) :
    p >>= f = p.bind f := rfl

@[simp] theorem done_bind {α β : Type} (a : α) (f : α → Program β) : (done a).bind f = f a := rfl

@[simp] theorem abort_bind {α β : Type} (m : String) (f : α → Program β) :
    (abort m).bind f = abort m := rfl

@[simp] theorem unfinished_bind {α β : Type} (f : α → Program β) :
    unfinished.bind f = unfinished := rfl

@[simp] theorem note_bind {α β : Type} (e : Event) (p : Program α) (f : α → Program β) :
    (note e p).bind f = note e (p.bind f) := rfl

@[simp] theorem call_bind {α β : Type} (c : Call) (next : c.Answer → Program α)
    (f : α → Program β) : (call c next).bind f = call c fun a => (next a).bind f := rfl

@[simp] theorem bind_done {α : Type} (p : Program α) : p.bind done = p := by
  induction p with
  | done a => rfl
  | abort m => rfl
  | unfinished => rfl
  | note e p ih => simp [Program.bind, ih]
  | call c next ih => simp [Program.bind, ih]

theorem bind_assoc {α β γ : Type} (p : Program α) (f : α → Program β) (g : β → Program γ) :
    (p.bind f).bind g = p.bind fun a => (f a).bind g := by
  induction p with
  | done a => rfl
  | abort m => rfl
  | unfinished => rfl
  | note e p ih => simp [Program.bind, ih]
  | call c next ih => simp [Program.bind, ih]

def ask (c : Call) : Program c.Answer := call c done

def log (e : Event) : Program Unit := note e (done ())

@[simp] theorem ask_bind {α : Type} (c : Call) (f : c.Answer → Program α) :
    (ask c).bind f = call c f := rfl

@[simp] theorem log_bind {α : Type} (e : Event) (f : Unit → Program α) :
    (log e).bind f = note e (f ()) := rfl

/-- Leaves through `fin` when an assertion breaks, and when `failed` holds of the result. -/
def leaving {α : Type} (failed : α → Bool) (fin : Program Unit) : Program α → Program α
  | done a => if failed a then fin.bind fun _ => done a else done a
  | abort m => fin.bind fun _ => abort m
  | unfinished => unfinished
  | note e p => note e (leaving failed fin p)
  | call c next => call c fun a => leaving failed fin (next a)

end Program

abbrev Action := ExceptT Failure Program

namespace Action

def ask (c : Call) : Action c.Answer := ExceptT.lift (Program.ask c)

def log (e : Event) : Action Unit := ExceptT.lift (Program.log e)

def abort {α : Type} (message : String) : Action α := ExceptT.mk (.abort message)

def unfinished {α : Type} : Action α := ExceptT.mk .unfinished

def orFail {α : Type} (asFailure : Errno → Failure) : Except Errno α → Action α
  | .ok a => pure a
  | .error e => throw (asFailure e)

/-- Runs `fin` before it leaves with a failure or a broken assertion. -/
def onLeave {α : Type} (p : Action α) (fin : Program Unit) : Action α :=
  ExceptT.mk (Program.leaving (fun r => !r.isOk) fin p.run)

def onAbort {α : Type} (p : Action α) (fin : Program Unit) : Action α :=
  ExceptT.mk (Program.leaving (fun _ => false) fin p.run)

def attempt {α : Type} (p : Action α) : Program (Except Failure α) := p.run

@[simp] theorem run_ask (c : Call) : (ask c).run = .call c fun a => .done (.ok a) := rfl

@[simp] theorem run_log (e : Event) : (log e).run = .note e (.done (.ok ())) := rfl

@[simp] theorem run_abort {α : Type} (m : String) : (abort m : Action α).run = .abort m := rfl

@[simp] theorem run_unfinished {α : Type} : (unfinished : Action α).run = .unfinished := rfl

@[simp] theorem run_lift {α : Type} (p : Program α) :
    (ExceptT.lift p : Action α).run = p.bind fun a => .done (.ok a) := rfl

@[simp] theorem run_bind {α β : Type} (p : Action α) (f : α → Action β) :
    (p >>= f).run = p.run.bind fun r => match r with
      | .ok a => (f a).run
      | .error e => .done (.error e) := by
  change Program.bind p.run (ExceptT.bindCont f) = _
  congr 1
  funext r
  cases r <;> rfl

@[simp] theorem run_orFail {α : Type} (asFailure : Errno → Failure) (r : Except Errno α) :
    (orFail asFailure r).run = .done (r.mapError asFailure) := by
  cases r <;> rfl

@[simp] theorem run_ofExcept {α : Type} (r : Except Failure α) :
    (MonadExcept.ofExcept r : Action α).run = .done r := by
  cases r <;> rfl

@[simp] theorem run_onLeave {α : Type} (p : Action α) (fin : Program Unit) :
    (p.onLeave fin).run = Program.leaving (fun r => !r.isOk) fin p.run := rfl

@[simp] theorem run_onAbort {α : Type} (p : Action α) (fin : Program Unit) :
    (p.onAbort fin).run = Program.leaving (fun _ => false) fin p.run := rfl

@[simp] theorem attempt_eq {α : Type} (p : Action α) : p.attempt = p.run := rfl

end Action

end OwnedHandles
