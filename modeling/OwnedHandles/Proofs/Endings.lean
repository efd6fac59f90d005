import OwnedHandles.Executable
import OwnedHandles.Proofs.Marshalling
import OwnedHandles.Proofs.World

namespace OwnedHandles

namespace Program

variable {α β : Type} {R : α → Prop} {S : β → Prop} {p : Program α}

/-- If the program ends then with such a value, whatever the answers are. -/
def EndsIn (R : α → Prop) : Program α → Prop
  | .done a => R a
  | .abort _ | .unfinished => True
  | .note _ p => p.EndsIn R
  | .call _ next => ∀ a, (next a).EndsIn R

theorem endsIn_true (p : Program α) : p.EndsIn fun _ => True := by
  induction p with
  | done a => trivial
  | abort m => trivial
  | unfinished => trivial
  | note e p ih => exact ih
  | call c next ih => exact ih

theorem EndsIn.bind {f : α → Program β} (hp : p.EndsIn R) (hf : ∀ a, R a → (f a).EndsIn S) :
    (p.bind f).EndsIn S := by
  induction p with
  | done a => exact hf a hp
  | abort m => trivial
  | unfinished => trivial
  | note e p ih => exact ih hp
  | call c next ih => exact fun a => ih a (hp a)

theorem EndsIn.weaken {R' : α → Prop} (hp : p.EndsIn R) (h : ∀ a, R a → R' a) : p.EndsIn R' := by
  induction p with
  | done a => exact h a hp
  | abort m => trivial
  | unfinished => trivial
  | note e p ih => exact ih hp
  | call c next ih => exact fun a => ih a (hp a)

theorem EndsIn.leaving {failed : α → Bool} {fin : Program Unit} (hp : p.EndsIn R) :
    (leaving failed fin p).EndsIn R := by
  induction p with
  | done a =>
    unfold Program.leaving
    split
    · exact fin.endsIn_true.bind fun _ _ => hp
    · exact hp
  | abort m => exact fin.endsIn_true.bind fun _ _ => trivial
  | unfinished => trivial
  | note e p ih => exact ih hp
  | call c next ih => exact fun a => ih a (hp a)

theorem EndsIn.meets {σ : Type} {w : World σ} {s : σ} (hp : p.EndsIn R) :
    w.Meets (.result fun a _ => R a) p s := by
  induction p generalizing s with
  | done a => exact fun _ _ => hp
  | abort m => exact fun _ _ => trivial
  | unfinished => exact fun _ _ => trivial
  | note e p ih => exact ih hp
  | call c next ih => exact fun t _ => ⟨trivial, fun a u _ => ih a (hp a)⟩

theorem EndsIn.refine {σ : Type} {w : World σ} {q : Contract σ α} {s : σ} (hp : p.EndsIn R)
    (h : w.Meets q p s) : w.Meets (q.before fun a t => R a ∧ q.returns a t) p s := by
  induction p generalizing s with
  | done a => exact fun t ht => ⟨hp, h t ht⟩
  | abort m => exact h
  | unfinished => exact h
  | note e p ih => exact ih hp h
  | call c next ih =>
    intro t ht
    obtain ⟨hcall, hnext⟩ := h t ht
    exact ⟨hcall, fun a u ha => ih a (hp a) (hnext a u ha)⟩

end Program

namespace Failure

variable {α β : Type} {R R' : α → Prop} {S : β → Prop} {F F' : Failure → Prop}

def Outcome (R : α → Prop) (F : Failure → Prop) : Except Failure α → Prop
  | .ok a => R a
  | .error f => F f

theorem Outcome.bind {r : Except Failure α} {f : α → Except Failure β} (hr : Outcome R F r)
    (hf : ∀ a, R a → Outcome S F (f a)) : Outcome S F (r >>= f) := by
  cases r with
  | ok a => exact hf a hr
  | error e => exact hr

theorem Outcome.weaken {r : Except Failure α} (hr : Outcome R F r) (hR : ∀ a, R a → R' a)
    (hF : ∀ f, F f → F' f) : Outcome R' F' r := by
  cases r with
  | ok a => exact hR a hr
  | error e => exact hF e hr

/-- The failure blames no string, no memory and no command that was executed. -/
def OfSystem : Failure → Prop
  | invalidString _ | allocationFailed _ | executionFailed .. => False
  | _ => True

/-- The failure is one of the system, or the command was executed and failed. -/
def OfExecuting (command : String) (f : Failure) : Prop :=
  f.OfSystem ∨ ∃ status stderr, f = .executionFailed command status stderr

theorem OfSystem.not_ofMarshalling {f : Failure} (h : f.OfSystem) : ¬f.OfMarshalling := by
  cases f <;> first | exact id | exact h.elim

theorem OfExecuting.not_ofMarshalling {f : Failure} {command : String}
    (h : f.OfExecuting command) : ¬f.OfMarshalling := by
  obtain h | ⟨_, _, rfl⟩ := h
  · exact h.not_ofMarshalling
  · exact id

end Failure

namespace Action

open Failure

variable {α β : Type} {R R' : α → Prop} {S : β → Prop} {F F' : Failure → Prop} {p : Action α}
  {f : α → Action β}

def EndsIn (R : α → Prop) (F : Failure → Prop) (p : Action α) : Prop :=
  p.run.EndsIn (Outcome R F)

theorem endsIn_pure {a : α} (ha : R a) : (pure a : Action α).EndsIn R F := ha

theorem endsIn_throw {e : Failure} (he : F e) : (throw e : Action α).EndsIn R F := he

theorem endsIn_ofExcept {r : Except Failure α} (h : Outcome R F r) :
    (MonadExcept.ofExcept r : Action α).EndsIn R F := by
  unfold EndsIn
  rw [run_ofExcept]
  exact h

theorem endsIn_ask (c : Call) : (ask c).EndsIn (fun _ => True) F := fun _ => trivial

theorem endsIn_log (e : Event) : (log e).EndsIn (fun _ => True) F := trivial

theorem endsIn_lift {p : Program α} (hp : p.EndsIn R) : EndsIn R F (ExceptT.lift p) := by
  unfold EndsIn
  rw [run_lift]
  exact hp.bind fun a ha => ha

theorem endsIn_perform (p : Program α) : EndsIn (fun _ => True) F (ExceptT.lift p) :=
  endsIn_lift p.endsIn_true

theorem EndsIn.bind (hp : p.EndsIn R F) (hf : ∀ a, R a → (f a).EndsIn S F) :
    (p >>= f).EndsIn S F := by
  unfold EndsIn
  rw [run_bind]
  refine Program.EndsIn.bind hp fun r hr => ?_
  cases r with
  | ok a => exact hf a hr
  | error e => exact hr

theorem EndsIn.andThen (hp : p.EndsIn R F) (hf : ∀ a, (f a).EndsIn S F) : (p >>= f).EndsIn S F :=
  hp.bind fun a _ => hf a

theorem EndsIn.weaken (hp : p.EndsIn R F) (hR : ∀ a, R a → R' a) (hF : ∀ e, F e → F' e) :
    p.EndsIn R' F' :=
  Program.EndsIn.weaken hp fun _ hr => hr.weaken hR hF

theorem endsIn_orFail {asFailure : Errno → Failure} (h : ∀ e, F (asFailure e))
    (r : Except Errno α) : (orFail asFailure r).EndsIn (fun _ => True) F := by
  cases r with
  | ok a => trivial
  | error e => exact h e

theorem EndsIn.onLeave {fin : Program Unit} (hp : p.EndsIn R F) : (p.onLeave fin).EndsIn R F :=
  Program.EndsIn.leaving hp

theorem EndsIn.onAbort {fin : Program Unit} (hp : p.EndsIn R F) : (p.onAbort fin).EndsIn R F :=
  Program.EndsIn.leaving hp

abbrev FailsBySystem (p : Action α) : Prop := p.EndsIn (fun _ => True) OfSystem

end Action

section Operations

open OwnedHandles.Action Failure

theorem BlockedSignals.blockAll_endsIn : FailsBySystem blockAll :=
  (endsIn_ask _).andThen fun _ => (endsIn_orFail (fun _ => trivial) _).andThen fun _ =>
    endsIn_pure trivial

namespace LaunchPlan

theorem ignoreChildTermination_endsIn : FailsBySystem ignoreChildTermination :=
  (endsIn_ask _).andThen fun _ => endsIn_orFail (fun _ => trivial) _

def Names (plan : LaunchPlan) (p : ProcessHandle) : Prop := p.name = some plan.commandText

theorem forkBlocked_endsIn (plan : LaunchPlan) (b : BlockedSignals) (stdio : ChildStdio)
    (detached : Bool) : (plan.forkBlocked b stdio detached).EndsIn plan.Names OfSystem := by
  refine (endsIn_ask _).andThen fun r => ?_
  cases r with
  | error e => exact (endsIn_perform _).andThen fun _ => endsIn_throw trivial
  | ok pid =>
    exact (endsIn_perform _).andThen fun _ => (endsIn_log _).andThen fun _ => endsIn_pure rfl

theorem fork_endsIn (plan : LaunchPlan) (stdio : ChildStdio) (detached : Bool) :
    (plan.fork stdio detached).EndsIn plan.Names OfSystem := by
  refine BlockedSignals.blockAll_endsIn.andThen fun blocked => ?_
  cases detached with
  | false => exact plan.forkBlocked_endsIn blocked stdio false
  | true =>
    exact ignoreChildTermination_endsIn.onLeave.andThen fun _ => plan.forkBlocked_endsIn _ _ _

theorem replaceCurrent_endsIn (plan : LaunchPlan) :
    plan.replaceCurrent.EndsIn fun f => ∃ e,
      f = .callFailed plan.execCall ("while executing \"" ++ plan.commandText ++ "\"") e :=
  fun e => ⟨e, rfl⟩

end LaunchPlan

namespace ChildStdio

theorem descriptorFor_outcome (d : Descriptor) :
    Outcome (fun _ => True) OfSystem (descriptorFor d) := by
  unfold descriptorFor
  cases d.fd <;> trivial

theorem ofDescriptors_outcome (stdin stdout stderr : Descriptor) :
    Outcome (fun _ => True) OfSystem (ofDescriptors stdin stdout stderr) :=
  (descriptorFor_outcome _).bind fun _ _ => (descriptorFor_outcome _).bind fun _ _ =>
    (descriptorFor_outcome _).bind fun _ _ => trivial

end ChildStdio

namespace StreamEnds

theorem openNamed_endsIn (stream : String) : FailsBySystem (PipeEnds.openNamed stream) :=
  (endsIn_ask _).andThen fun _ => (endsIn_orFail (fun _ => trivial) _).andThen fun _ =>
    endsIn_pure trivial

theorem openPipes_endsIn : FailsBySystem openPipes :=
  (openNamed_endsIn _).andThen fun _ => (openNamed_endsIn _).onLeave.andThen fun _ =>
    (openNamed_endsIn _).onLeave.andThen fun _ => endsIn_pure trivial

end StreamEnds

namespace Descriptor

theorem read_endsIn (d : Descriptor) (count : Nat) : FailsBySystem (d.read count) := by
  unfold read
  cases d.fd with
  | none => exact endsIn_throw trivial
  | some fd => exact (endsIn_ask _).andThen fun _ => endsIn_orFail (fun _ => trivial) _

theorem readOn_endsIn (d : Descriptor) (rounds : Nat) (content : List Bytes) :
    FailsBySystem (d.readOn rounds content) := by
  induction rounds generalizing content with
  | zero => trivial
  | succ rounds ih =>
    refine (endsIn_lift (d.read_endsIn Limits.readChunk)).bind fun r hr => ?_
    split
    · exact endsIn_pure trivial
    · exact ih _
    · exact ih _
    · exact endsIn_throw hr

theorem setExactMode_endsIn (d : Descriptor) (fd : Fd) (perm : Mode) :
    FailsBySystem (d.setExactMode fd perm) := by
  refine (endsIn_ask _).andThen fun r => ?_
  cases r with
  | ok _ => exact endsIn_pure trivial
  | error e => exact (endsIn_perform _).andThen fun _ => endsIn_throw trivial

theorem openFile_endsIn (file : File) (flags : OpenFlags) (perm : Mode) :
    FailsBySystem (openFile file flags perm) := by
  refine (endsIn_ask _).andThen fun existed => (endsIn_ask _).andThen fun r => ?_
  cases r with
  | error e => exact (endsIn_log _).andThen fun _ => endsIn_throw trivial
  | ok fd =>
    refine (endsIn_log _).andThen fun _ => ?_
    split
    · exact (setExactMode_endsIn _ _ _).andThen fun _ => (endsIn_log _).andThen fun _ =>
        endsIn_pure trivial
    · exact (endsIn_log _).andThen fun _ => endsIn_pure trivial

end Descriptor

theorem StreamEnds.drain_endsIn (e : StreamEnds) (rounds : Nat) : FailsBySystem (e.drain rounds) :=
  (endsIn_perform _).andThen fun _ => (Descriptor.readOn_endsIn _ _ _).onLeave.andThen fun _ =>
    (Descriptor.readOn_endsIn _ _ _).onLeave.andThen fun _ =>
    (endsIn_perform _).andThen fun _ => endsIn_pure trivial

theorem WaitStatus.outcome_outcome (status : WaitStatus) (strict : Bool) :
    Outcome (fun _ => True) OfSystem (status.outcome strict) := by
  cases status with
  | exited pid code =>
    change Outcome _ _ (if _ then _ else _)
    split <;> trivial
  | _ => trivial

theorem ProcessHandle.join_endsIn (self : Pid) (p : ProcessHandle) (strict : Bool) :
    FailsBySystem (p.join self strict) := by
  unfold join
  split
  · trivial
  · refine (endsIn_ask _).andThen fun r => ?_
    cases r with
    | error e => exact endsIn_throw trivial
    | ok status =>
      exact (endsIn_log _).andThen fun _ => endsIn_ofExcept (status.outcome_outcome strict)

namespace Executable

theorem startOnPipes_endsIn (plan : LaunchPlan) :
    (startOnPipes plan).EndsIn (fun started => plan.Names started.1) OfSystem :=
  StreamEnds.openPipes_endsIn.andThen fun _ =>
    (endsIn_ofExcept (ChildStdio.ofDescriptors_outcome _ _ _)).onLeave.andThen fun _ =>
    (plan.fork_endsIn _ _).onLeave.bind fun _ hp => (endsIn_perform _).andThen fun _ =>
    endsIn_pure hp

theorem conclude_endsIn {plan : LaunchPlan} {process : ProcessHandle} {ending : Except Failure Int}
    (h : Outcome (fun _ => True) OfSystem ending) (out err : Bytes) :
    (conclude plan process ending out err).EndsIn (fun _ => True)
      (OfExecuting plan.commandText) := by
  refine (endsIn_ofExcept (h.weaken (fun _ => id) fun _ => .inl)).andThen fun status =>
    (endsIn_log _).andThen fun _ => ?_
  split
  · exact endsIn_pure trivial
  · exact endsIn_throw (.inr ⟨_, _, rfl⟩)

variable {α : Type} {e : Executable} {params : List Bytes} {env : Option Environment}
  {R : LaunchPlan → α → Prop} {F : LaunchPlan → Failure → Prop} {p : Action α}

def Plans (e : Executable) (params : List Bytes) (env : Option Environment) (p : Action α)
    (R : LaunchPlan → α → Prop) (F : LaunchPlan → Failure → Prop) : Prop :=
  ∃ f, p = e.plan params env >>= f ∧ ∀ plan, (f plan).EndsIn (R plan) (F plan)

theorem Plans.endsIn {plan : LaunchPlan} (h : e.Plans params env p R F)
    (hmake : LaunchPlan.make e.program params env = .ok plan) : p.EndsIn (R plan) (F plan) := by
  obtain ⟨f, rfl, hf⟩ := h
  rw [Executable.plan, hmake]
  exact hf plan

theorem exec_plans (e : Executable) (params : List Bytes) (env : Option Environment) :
    e.Plans params env (e.exec params env) (fun _ _ => False) fun plan f => ∃ errno,
      f = .callFailed plan.execCall ("while executing \"" ++ plan.commandText ++ "\"") errno :=
  ⟨_, rfl, fun plan => (endsIn_lift plan.replaceCurrent_endsIn).bind fun _ hf =>
    endsIn_throw hf⟩

theorem start_plans (e : Executable) (params : List Bytes) (env : Option Environment) :
    e.Plans params env (e.start params env) LaunchPlan.Names fun _ => OfSystem :=
  ⟨_, rfl, fun plan => plan.fork_endsIn _ _⟩

theorem startAndForget_plans (e : Executable) (params : List Bytes) :
    e.Plans params none (e.startAndForget params) LaunchPlan.Names fun _ => OfSystem :=
  ⟨_, rfl, fun plan => plan.fork_endsIn _ _⟩

theorem capture_plans (e : Executable) (self : Pid) (params : List Bytes)
    (env : Option Environment) (rounds : Nat) :
    e.Plans params env (e.capture self params env rounds) (fun _ _ => True)
      fun plan => OfExecuting plan.commandText := by
  refine ⟨_, rfl, fun plan => ?_⟩
  refine ((startOnPipes_endsIn plan).weaken (fun _ _ => trivial) fun _ => .inl).andThen
    fun started => (endsIn_perform _).andThen fun _ => ?_
  refine (endsIn_lift (started.1.join_endsIn self false).onAbort).bind fun ending hending => ?_
  exact ((StreamEnds.drain_endsIn _ rounds).weaken (fun _ => id) fun _ => .inl).andThen fun _ =>
    conclude_endsIn hending _ _

theorem redirect_plans (e : Executable) (params : List Bytes) (env : Option Environment)
    (input output error : File) (perm : Mode) :
    e.Plans params env (e.redirect params env input output error perm) LaunchPlan.Names
      fun _ => OfSystem :=
  ⟨_, rfl, fun plan => (Descriptor.openFile_endsIn _ _ _).andThen fun _ =>
    (Descriptor.openFile_endsIn _ _ _).onLeave.andThen fun _ =>
    (Descriptor.openFile_endsIn _ _ _).onLeave.andThen fun _ =>
    (endsIn_ofExcept (ChildStdio.ofDescriptors_outcome _ _ _)).onLeave.andThen fun _ =>
    (plan.fork_endsIn _ _).onLeave.bind fun _ hp => (endsIn_perform _).andThen fun _ =>
    (endsIn_log _).andThen fun _ => endsIn_pure hp⟩

end Executable

end Operations

end OwnedHandles
