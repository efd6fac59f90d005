import Mathlib.Data.List.Forall2
import OwnedHandles.Proofs.Launches
import OwnedHandles.Proofs.Marshalling
import OwnedHandles.Proofs.ShownPaths
import OwnedHandles.Proofs.SpelledCalls

namespace OwnedHandles

open Kernel (State Tool)

open Kernel.Exec (program resolve)

inductive Renamed (p q : Bytes) : Bytes → Bytes → Prop
  | same (x : Bytes) : Renamed p q x x
  | program : Renamed p q p q

namespace Kernel.Exec

variable {s : State} {pid : Pid} {p q path path' : Bytes} {args args' env : List Bytes}

/-- A program that is run by two names: not found by either for the same reason, or the same one
with arguments that name it differently, or not run because a name makes its arguments too long. -/
inductive SameTarget (p q : Bytes) (x y : Except Errno (Tool × List Bytes)) : Prop
  | failed (e : Errno) (hx : x = .error e) (hy : y = .error e)
  | reached (t : Tool) (args args' : List Bytes) (hx : x = .ok (t, args)) (hy : y = .ok (t, args'))
      (hargs : List.Forall₂ (Renamed p q) args args')
  | tooLong (h : x = .error .E2BIG ∨ y = .error .E2BIG)

theorem program_congr (h : Walk.find s pid true path = Walk.find s pid true path') :
    program s pid path = program s pid path' := by
  unfold program
  rw [h]

theorem resolve_like (depth : Nat) (hprogram : program s pid path = program s pid path')
    (hpath : Renamed p q path path') (hargs : List.Forall₂ (Renamed p q) args args') :
    SameTarget p q (resolve s pid depth path args env) (resolve s pid depth path' args' env) := by
  induction depth generalizing path path' args args' with
  | zero => exact .failed _ rfl rfl
  | succ depth ih =>
    unfold resolve
    rw [hprogram]
    cases program s pid path' with
    | error e => exact .failed e rfl rfl
    | ok content =>
      cases fits args env with
      | false => exact .tooLong (.inl rfl)
      | true =>
        cases fits args' env with
        | false => exact .tooLong (.inr rfl)
        | true =>
          cases content with
          | tool t => exact .reached t args args' rfl rfl hargs
          | regular data slack =>
            simp only [bind, Except.bind, Bool.not_true, Bool.false_eq_true, if_false]
            split
            · exact .failed _ rfl rfl
            · rename_i name argument _ _
              have htail : List.Forall₂ (Renamed p q) args.tail args'.tail := by
                cases hargs with
                | nil => exact .nil
                | cons _ h => exact h
              exact ih rfl (.same name) (.cons (.same name)
                (List.rel_append (List.forall₂_same.mpr fun x _ => .same x)
                  (.cons hpath htail)))
            · exact .failed _ rfl rfl
          | _ => exact .failed _ rfl rfl

end Kernel.Exec

namespace LaunchPlan

variable {p q : Bytes}

structure Renamed (p q : Bytes) (plan plan' : LaunchPlan) : Prop where
  arguments : ∃ params, plan.arguments.strings = p :: params ∧ plan'.arguments.strings = q :: params
  environment : plan.environment = plan'.environment

theorem make_like (h : 0 ∈ p ↔ 0 ∈ q) (params : List Bytes) (env : Option Environment) :
    Result.Like (Renamed p q) (make p params env) (make q params env) := by
  rw [make_eq_judge, make_eq_judge, LaunchString.judge, LaunchString.judge]
  simp only [LaunchString.ofLaunch, List.map_cons, List.cons_append, List.find?_cons]
  by_cases hzero : 0 ∈ q
  · have hp : LaunchString.Invalid (.word p) := h.mpr hzero
    have hq : LaunchString.Invalid (.word q) := hzero
    simp only [hp, hq, decide_true]
    exact .error rfl
  · have hp : ¬LaunchString.Invalid (.word p) := mt h.mp hzero
    have hq : ¬LaunchString.Invalid (.word q) := hzero
    simp only [hp, hq, decide_false]
    split
    · exact .error rfl
    · exact .ok ⟨⟨params, rfl, rfl⟩, rfl⟩

end LaunchPlan

structure ChildTask.Renamed (p q : Bytes) (t t' : ChildTask) : Prop where
  plan : t.plan.Renamed p q t'.plan
  stdio : t.stdio = t'.stdio
  detached : t.detached = t'.detached
  mask : t.mask = t'.mask

/-- Calls that differ in how a program is named: in what the child of a launch is to execute, and in
the note that it leaves if it can not. -/
inductive Call.Renamed (p q : Bytes) : Call → Call → Prop
  | fork {t t'} (h : ChildTask.Renamed p q t t') : Renamed p q (.fork t) (.fork t')
  | exec {plan plan'} (h : LaunchPlan.Renamed p q plan plan') :
      Renamed p q (.exec plan.arguments plan.environment) (.exec plan'.arguments plan'.environment)
  | note {plan plan'} (h : LaunchPlan.Renamed p q plan plan') :
      Renamed p q (.write 2 plan.failureNote) (.write 2 plan'.failureNote)

def ProcessHandle.Alike (h h' : ProcessHandle) : Prop := h.pid = h'.pid

section Children

variable {p q : Bytes} {plan plan' : LaunchPlan} {t t' : ChildTask}

theorem ChildTask.report_like (h : t.plan.Renamed p q t'.plan) (call : String) (e : Errno) :
    (t.report call e).Like (Call.Renamed p q) (· = ·) (t'.report call e) :=
  .twin (.note h) rfl fun _ => .refl (fun _ => rfl) _

theorem LaunchPlan.exec_like (h : plan.Renamed p q plan') :
    plan.exec.Like (Call.Renamed p q) (· = ·) plan'.exec :=
  .twin (.exec h) rfl fun _ => .done rfl

theorem LaunchPlan.execCall_eq (h : plan.Renamed p q plan') : plan.execCall = plan'.execCall := by
  rw [execCall, h.environment, execCall]

theorem ChildTask.main_like (h : t.Renamed p q t') :
    t.main.Like (Call.Renamed p q) (· = ·) t'.main := by
  obtain ⟨hplan, hstdio, hdetached, hmask⟩ := h
  have hreset : t.resetDispositions = t'.resetDispositions := by
    rw [resetDispositions, hdetached, resetDispositions]
  unfold main
  rw [hreset, hstdio, hmask]
  refine .bind_same fun _ => .bind_same fun _ => .bind_same fun r => ?_
  have hexit : (Program.ask (.exit Limits.execFailureStatus)).Like (Call.Renamed p q) (· = ·)
      (Program.ask (.exit Limits.execFailureStatus)) := .refl (fun _ => rfl) _
  cases r with
  | error e => exact .bind (report_like hplan _ _) fun _ _ _ => hexit
  | ok _ =>
    refine .bind (LaunchPlan.exec_like hplan) ?_
    rintro e _ rfl
    rw [LaunchPlan.execCall_eq hplan]
    exact .bind (report_like hplan _ _) fun _ _ _ => hexit

end Children

section Launches

variable {p q : Bytes} {plan plan' : LaunchPlan} {h h' : ProcessHandle} {e e' : Executable}

theorem LaunchPlan.forkBlocked_like (hplan : plan.Renamed p q plan') (blocked : BlockedSignals)
    (stdio : ChildStdio) (detached : Bool) :
    (plan.forkBlocked blocked stdio detached).Like (Call.Renamed p q) ProcessHandle.Alike
      (plan'.forkBlocked blocked stdio detached) := by
  refine .twin_bind (.fork ⟨hplan, rfl, rfl, rfl⟩) rfl fun a => ?_
  cases a with
  | error e => exact .lift_bind_same fun _ => .throw rfl
  | ok pid => exact .lift_bind_same fun _ => .log_bind (.pure rfl)

theorem LaunchPlan.fork_like (hplan : plan.Renamed p q plan') (stdio : ChildStdio)
    (detached : Bool) : (plan.fork stdio detached).Like (Call.Renamed p q) ProcessHandle.Alike
      (plan'.fork stdio detached) := by
  refine .bind_same fun blocked => ?_
  cases detached with
  | false => exact forkBlocked_like hplan blocked stdio false
  | true => exact .bind_same fun _ => forkBlocked_like hplan blocked stdio true

theorem ProcessHandle.join_like {C : Call → Call → Prop} (hpid : h.Alike h') (self : Pid)
    (strict : Bool) : (h.join self strict).Like C (· = ·) (h'.join self strict) := by
  obtain ⟨pid, name⟩ := h
  obtain ⟨_, name'⟩ := h'
  obtain rfl := hpid
  unfold join
  by_cases hself : pid = self
  · simp only [hself, if_true]
    exact .abort _
  · simp only [hself, if_false]
    refine .ask_bind fun a => ?_
    cases a with
    | error e => exact .throw rfl
    | ok status => exact .log_bind (.refl (fun _ => rfl) _)

theorem Executable.plan_like (hprogram : 0 ∈ e.program ↔ 0 ∈ e'.program) (params : List Bytes)
    (env : Option Environment) : (e.plan params env).Like (Call.Renamed e.program e'.program)
      (LaunchPlan.Renamed e.program e'.program) (e'.plan params env) :=
  .ofExcept (LaunchPlan.make_like hprogram params env)

theorem Executable.startOnPipes_like (hplan : plan.Renamed p q plan') :
    (startOnPipes plan).Like (Call.Renamed p q) (fun x y => x.1.Alike y.1 ∧ x.2 = y.2)
      (startOnPipes plan') := by
  refine .bind_same fun ⟨child, parent⟩ => .bind_same fun stdio => ?_
  refine .bind (.onLeave (LaunchPlan.fork_like hplan stdio false) (.refl (fun _ => trivial) _))
    fun h h' hpid => ?_
  exact .lift_bind_same fun _ => .pure ⟨hpid, rfl⟩

theorem Executable.conclude_like {C : Call → Call → Prop} {ending ending' : Except Failure Int}
    (hending : Result.Like (· = ·) ending ending') (out err : Bytes) :
    (conclude plan h ending out err).Like C (· = ·) (conclude plan' h' ending' out err) := by
  refine .bind (.ofExcept hending) ?_
  rintro status _ rfl
  refine .log_bind ?_
  split
  · exact .pure rfl
  · exact .throw rfl

structure Executable.LaunchesLike (e e' : Executable) : Prop where
  exec (params : List Bytes) (env : Option Environment) :
    (e.exec params env).Like (Call.Renamed e.program e'.program) (· = ·) (e'.exec params env)
  start (params : List Bytes) (env : Option Environment) :
    (e.start params env).Like (Call.Renamed e.program e'.program) ProcessHandle.Alike
      (e'.start params env)
  startAndForget (params : List Bytes) :
    (e.startAndForget params).Like (Call.Renamed e.program e'.program) ProcessHandle.Alike
      (e'.startAndForget params)
  capture (self : Pid) (params : List Bytes) (env : Option Environment) (rounds : Nat) :
    (e.capture self params env rounds).Like (Call.Renamed e.program e'.program) (· = ·)
      (e'.capture self params env rounds)
  redirect (params : List Bytes) (env : Option Environment) (input output error : File)
      (perm : Mode) :
    (e.redirect params env input output error perm).Like (Call.Renamed e.program e'.program)
      ProcessHandle.Alike (e'.redirect params env input output error perm)

theorem Executable.launchesLike (hprogram : 0 ∈ e.program ↔ 0 ∈ e'.program) :
    e.LaunchesLike e' where
  exec params env := by
    refine .bind (plan_like hprogram params env) fun plan plan' hplan => ?_
    refine .lift_bind (R := fun f f' => f.unnamed = f'.unnamed) ?_ fun f f' hf => .throw hf
    refine .bind (LaunchPlan.exec_like hplan) ?_
    rintro errno _ rfl
    rw [LaunchPlan.execCall_eq hplan]
    exact .done rfl
  start params env :=
    .bind (plan_like hprogram params env) fun _ _ hplan => LaunchPlan.fork_like hplan .inherit false
  startAndForget params :=
    .bind (plan_like hprogram params none) fun _ _ hplan => LaunchPlan.fork_like hplan .inherit true
  capture self params env rounds := by
    refine .bind (plan_like hprogram params env) fun plan plan' hplan => ?_
    refine .bind (startOnPipes_like hplan) ?_
    rintro ⟨h, parent⟩ ⟨h', _⟩ ⟨hpid, rfl⟩
    refine .lift_bind_same fun stdin => ?_
    refine .lift_bind (Action.Like.onAbort (ProcessHandle.join_like hpid self false)
      (.refl (fun _ => trivial) _)) fun ending ending' hending => ?_
    exact .bind_same fun ⟨out, err⟩ => conclude_like hending out err
  redirect params env input output error perm := by
    refine .bind (plan_like hprogram params env) fun plan plan' hplan => ?_
    refine .bind_same fun stdin => .bind_same fun stdout => .bind_same fun stderr =>
      .bind_same fun stdio => ?_
    refine .bind (.onLeave (LaunchPlan.fork_like hplan stdio false) (.refl (fun _ => trivial) _))
      fun h h' hpid => ?_
    exact .lift_bind_same fun _ => .log_bind (.pure hpid)

end Launches

end OwnedHandles
