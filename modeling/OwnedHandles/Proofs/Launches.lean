import OwnedHandles.Proofs.Calls

namespace OwnedHandles

inductive Launch
  | start (e : Executable) (params : List Bytes) (env : Option Environment)
  | startAndForget (e : Executable) (params : List Bytes)
  | capture (e : Executable) (self : Pid) (params : List Bytes) (env : Option Environment)
      (rounds : Nat)
  | redirect (e : Executable) (params : List Bytes) (env : Option Environment)
      (input output error : File) (perm : Mode)

namespace Launch

def executable : Launch → Executable
  | start e .. | startAndForget e _ | capture e .. | redirect e .. => e

def parameters : Launch → List Bytes
  | start _ params _ | startAndForget _ params | capture _ _ params .. | redirect _ params .. =>
    params

def environment : Launch → Option Environment
  | start _ _ env | capture _ _ _ env _ | redirect _ _ env .. => env
  | startAndForget .. => none

def forgets : Launch → Bool
  | startAndForget .. => true
  | _ => false

def plan (l : Launch) : Except Failure LaunchPlan :=
  LaunchPlan.make l.executable.program l.parameters l.environment

def action : Launch → Action Unit
  | start e params env => do let _ ← e.start params env
  | startAndForget e params => do let _ ← e.startAndForget params
  | capture e self params env rounds => do let _ ← e.capture self params env rounds
  | redirect e params env input output error perm => do
    let _ ← e.redirect params env input output error perm

end Launch

theorem Executable.shell_plan : ∃ plan, LaunchPlan.make shell.program [] none = .ok plan := by
  have hok : (LaunchPlan.make shell.program [] none).isOk = true := by decide +kernel
  cases hplan : LaunchPlan.make shell.program [] none with
  | ok plan => exact ⟨plan, rfl⟩
  | error e => simp [hplan, Except.isOk, Except.toBool] at hok

/-- A property of programs that ordinary calls have and that is kept when programs are put
together. -/
structure Program.Compositional (Q : ∀ {α : Type}, Program α → Prop) : Prop where
  ordinary {α : Type} {p : Program α} : p.Makes Call.Ordinary → Q p
  bind {α β : Type} {p : Program α} {f : α → Program β} : Q p → (∀ a, Q (f a)) → Q (p.bind f)
  leaving {α : Type} {failed : α → Bool} {fin : Program Unit} {p : Program α} :
    Q p → fin.Makes Call.Ordinary → Q (Program.leaving failed fin p)

theorem Program.compositional_makes {P : Call → Prop} (hother : ∀ c, c.Ordinary → P c) :
    Program.Compositional fun p => p.Makes P where
  ordinary hp := hp.mono hother
  bind hp hf := hp.bind hf
  leaving hp hfin := hp.leaving (hfin.mono hother)

namespace Program.Compositional

variable {Q : ∀ {α : Type}, Program α → Prop} {α β : Type}

theorem action_bind (hQ : Compositional Q) {p : Action α} {f : α → Action β} (hp : Q p.run)
    (hf : ∀ a, Q (f a).run) : Q (p >>= f).run := by
  rw [Action.run_bind]
  apply hQ.bind hp
  intro r
  cases r with
  | ok a => exact hf a
  | error e => exact hQ.ordinary trivial

theorem forgetting (hQ : Compositional Q) {p : Action α} (hp : Q p.run) :
    Q (do let _ ← p : Action Unit).run :=
  hQ.action_bind hp fun _ => hQ.ordinary trivial

theorem planned (hQ : Compositional Q) {e : Executable} {params : List Bytes}
    {env : Option Environment} {f : LaunchPlan → Action α}
    (hf : ∀ plan, LaunchPlan.make e.program params env = .ok plan → Q (f plan).run) :
    Q (e.plan params env >>= f).run := by
  unfold Executable.plan
  cases hplan : LaunchPlan.make e.program params env with
  | error failure => exact hQ.ordinary trivial
  | ok plan => exact hf plan hplan

theorem startOnPipes (hQ : Compositional Q) {plan : LaunchPlan}
    (hfork : ∀ stdio, Q (plan.fork stdio false).run) : Q (Executable.startOnPipes plan).run := by
  have hclose (fd : Fd) : Call.Ordinary (.close fd) := ⟨trivial, trivial, trivial⟩
  apply hQ.action_bind (hQ.ordinary (StreamEnds.openPipes_makes ⟨trivial, trivial, trivial⟩ hclose))
  intro ends
  have hleave : (ends.2.drop.bind fun _ => ends.1.drop).Makes Call.Ordinary :=
    (ends.2.drop_makes hclose).bind fun _ => ends.1.drop_makes hclose
  refine hQ.action_bind (hQ.ordinary ((Action.makes_ofExcept _).leaving hleave)) fun stdio =>
    hQ.action_bind (hQ.leaving (hfork stdio) hleave) fun process => hQ.ordinary ?_
  exact Action.makes_bind (Action.makes_lift (ends.1.drop_makes hclose)) fun _ => trivial

theorem capture (hQ : Compositional Q) {e : Executable} {params : List Bytes}
    {env : Option Environment} (self : Pid) (rounds : Nat)
    (hfork : ∀ plan stdio, LaunchPlan.make e.program params env = .ok plan →
      Q (plan.fork stdio false).run) : Q (e.capture self params env rounds).run := by
  have hclose (fd : Fd) : Call.Ordinary (.close fd) := ⟨trivial, trivial, trivial⟩
  refine hQ.planned fun plan hplan => hQ.action_bind (hQ.startOnPipes fun stdio =>
    hfork plan stdio hplan) fun started => hQ.ordinary ?_
  refine Action.makes_bind (Action.makes_lift (Descriptor.closeSafe_makes hclose _)) fun stdin =>
    Action.makes_bind (Action.makes_lift ?_) fun ending => ?_
  · exact (started.1.join_makes (fun _ => ⟨trivial, trivial, trivial⟩) self false).leaving
      (StreamEnds.drop_makes hclose _)
  · exact Executable.drain_conclude_makes hclose (fun _ _ => ⟨trivial, trivial, trivial⟩) _ rounds
      plan started.1 ending

theorem redirect (hQ : Compositional Q) {e : Executable} {params : List Bytes}
    {env : Option Environment} (input output error : File) (perm : Mode)
    (hfork : ∀ plan stdio, LaunchPlan.make e.program params env = .ok plan →
      Q (plan.fork stdio false).run) :
    Q (e.redirect params env input output error perm).run := by
  have hreading : Executable.reading.has .closeOnExec = true := by decide
  have hwriting : Executable.writing.has .closeOnExec = true := by decide
  have hdrop (ds : List Descriptor) : (Descriptor.dropAll ds).Makes Call.Ordinary :=
    Descriptor.dropAll_makes (fun _ => ⟨trivial, trivial, trivial⟩) ds
  have hopen (file : File) {flags : OpenFlags} (hflags : flags.has .closeOnExec = true) :
      (Descriptor.openFile file flags perm).run.Makes Call.Ordinary :=
    Descriptor.openFile_makes ⟨trivial, trivial, trivial⟩ ⟨trivial, trivial, hflags⟩
      (fun _ => ⟨trivial, trivial, trivial⟩) fun _ => ⟨trivial, trivial, trivial⟩
  refine hQ.planned fun plan hplan => hQ.action_bind (hQ.ordinary (hopen _ hreading)) fun stdin =>
    hQ.action_bind (hQ.ordinary ((hopen _ hwriting).leaving (hdrop _))) fun stdout =>
    hQ.action_bind (hQ.ordinary ((hopen _ hwriting).leaving (hdrop _))) fun stderr =>
    hQ.action_bind (hQ.ordinary ((Action.makes_ofExcept _).leaving (hdrop _))) fun stdio =>
    hQ.action_bind (hQ.leaving (hfork plan stdio hplan) (hdrop _)) fun process =>
    hQ.ordinary ?_
  exact Action.makes_bind (Action.makes_lift (hdrop _)) fun _ => trivial

theorem launch (hQ : Compositional Q) (l : Launch)
    (hfork : ∀ plan stdio, l.plan = .ok plan → Q (plan.fork stdio l.forgets).run) :
    Q l.action.run := by
  cases l with
  | start e params env => exact hQ.forgetting (hQ.planned fun plan => hfork plan _)
  | startAndForget e params => exact hQ.forgetting (hQ.planned fun plan => hfork plan _)
  | capture e self params env rounds => exact hQ.forgetting (hQ.capture self rounds hfork)
  | redirect e params env input output error perm =>
    exact hQ.forgetting (hQ.redirect input output error perm hfork)

end Program.Compositional

end OwnedHandles
