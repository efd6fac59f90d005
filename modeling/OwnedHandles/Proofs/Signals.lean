import OwnedHandles.Proofs.Launches
import OwnedHandles.Proofs.Table

namespace OwnedHandles

namespace SignalMask

def settable (m : SignalMask) : SignalMask :=
  (m.without Signal.SIGKILL.number).without Signal.SIGSTOP.number

@[simp] theorem settable_settable (m : SignalMask) : m.settable.settable = m.settable := by
  unfold settable without
  ext i
  simp only [BitVec.getElem_and]
  grind

theorem full_not_settable : full.settable ≠ full := by decide

end SignalMask

structure SignalState where
  mask : SignalMask
  dispositions : Dispositions
  settable : mask.settable = mask

namespace SignalState

def withMask (s : SignalState) (m : SignalMask) : SignalState :=
  { s with mask := m.settable, settable := m.settable_settable }

def withDisposition (s : SignalState) (n : Nat) (d : Disposition) : SignalState :=
  { s with dispositions := s.dispositions.set n d }

def ignoringChildren (s : SignalState) : SignalState :=
  s.withDisposition Signal.SIGCHLD.number .ignored

def atFork (s : SignalState) (detached : Bool) : SignalState :=
  (if detached then s.ignoringChildren else s).withMask .full

/-- The state in which a child becomes its program, if its parent was in this one before the
launch. -/
def forChild (s : SignalState) (detached : Bool) : SignalState :=
  { s with dispositions := fun n =>
      if n = Signal.SIGTERM.number ∨ n = Signal.SIGINT.number ∨
        (detached = true ∧ n = Signal.SIGCHLD.number) then .byDefault
      else s.dispositions n }

def withDefaults (s : SignalState) (detached : Bool) : SignalState :=
  let reset := (s.withDisposition Signal.SIGTERM.number .byDefault).withDisposition
    Signal.SIGINT.number .byDefault
  if detached then reset.withDisposition Signal.SIGCHLD.number .byDefault else reset

variable {s : SignalState}

theorem ext_of {s t : SignalState} (hmask : s.mask = t.mask)
    (hdispositions : s.dispositions = t.dispositions) : s = t := by
  obtain ⟨m, d, h⟩ := s
  obtain rfl : m = t.mask := hmask
  obtain rfl : d = t.dispositions := hdispositions
  rfl

theorem mask_ne_full (s : SignalState) : s.mask ≠ .full := by
  intro h
  exact SignalMask.full_not_settable (h ▸ s.settable)

@[simp] theorem withMask_withMask (s : SignalState) (m m' : SignalMask) :
    (s.withMask m).withMask m' = s.withMask m' := rfl

@[simp] theorem withMask_mask (s : SignalState) : s.withMask s.mask = s :=
  ext_of s.settable rfl

@[simp] theorem ignoringChildren_mask (s : SignalState) : s.ignoringChildren.mask = s.mask := rfl

theorem atFork_withDefaults (parent : SignalState) (detached : Bool) :
    ((parent.atFork detached).withDefaults detached).withMask parent.mask =
      parent.forChild detached := by
  refine ext_of parent.settable ?_
  funext n
  cases detached with
  | false =>
    simp only [atFork, withDefaults, withDisposition, withMask, forChild]
    grind [Dispositions.set]
  | true =>
    simp only [atFork, withDefaults, ignoringChildren, withDisposition, withMask, forChild]
    grind [Dispositions.set]

end SignalState

/-- What a call does to the signal state of the process that makes it. Blocking everything may
fail, putting back a mask that was in force does not; arranging for a signal may fail, going back to
the default does not. -/
def Call.changesSignals (s : SignalState) : (c : Call) → c.Answer → SignalState → Prop
  | .setMask m, .ok old, t => old = s.mask ∧ t = s.withMask m
  | .setMask m, .error _, t => m = .full ∧ t = s
  | .setDisposition n d, .ok _, t => t = s.withDisposition n d
  | .setDisposition _ d, .error _, t => d ≠ .byDefault ∧ t = s
  | _, _, t => t = s

def World.signals : World SignalState := World.alone Call.changesSignals

theorem World.signals_maySetUp (s : SignalState) : World.signals.MaySetUp fun _ => s where
  duplicate _ _ := rfl
  setCloseOnExec _ _ := rfl
  close _ _ := rfl

theorem Call.KeepsSignals.frame {c : Call} (hc : c.KeepsSignals) {s t : SignalState}
    {a : c.Answer} (h : c.changesSignals s a t) : t = s := by
  cases c <;> first | exact hc.elim | exact h

namespace Contract

variable {α : Type}

def becoming (u : SignalState) : Contract SignalState α :=
  ⟨fun t c => ∀ args env, c = .exec args env → t = u, fun _ _ => True, fun _ _ => True,
    fun _ => True⟩

/-- Asks that a child which is started now has all signals blocked and the mask from before the
launch in its task, and for what holds when the launch is over. -/
def forking (parent : SignalState) (detached : Bool) (R : α → SignalState → Prop) :
    Contract SignalState α :=
  ⟨fun t c => ∀ task, c = .fork task →
      task.mask = parent.mask ∧ task.detached = detached ∧ t = parent.atFork detached,
    R, fun _ _ => True, fun _ => True⟩

/-- Asks that a child which is started now becomes its program in this state, and for what holds
when the launch is over. -/
def startingIn (u : SignalState) (R : α → SignalState → Prop) : Contract SignalState α :=
  ⟨fun t c => ∀ task, c = .fork task → World.signals.Meets (becoming u) task.main t, R,
    fun _ _ => True, fun _ => True⟩

end Contract

namespace ChildTask

variable {α : Type} {t : ChildTask} {s u parent : SignalState} {detached : Bool}

theorem setDisposition_meets {n : Nat} {next : Except Errno Unit → Program α}
    (h : World.signals.Meets (.becoming u) (next (.ok ())) (s.withDisposition n .byDefault)) :
    World.signals.Meets (.becoming u) (.call (.setDisposition n .byDefault) next) s := by
  refine World.alone_call nofun fun a w ha => ?_
  cases a with
  | ok _ =>
    obtain rfl : w = s.withDisposition n .byDefault := ha
    exact h
  | error e => exact (ha.1 rfl).elim

theorem become_meets (hs : s = u) : World.signals.Meets (.becoming u) t.become s := by
  have hmakes : t.become.Makes Call.KeepsSignals := become_makes (fun _ _ h _ => h) trivial
  exact hmakes.meets (fun _ hv => (World.others_alone _).mp hv) (fun _ _ _ hc ha => hc.frame ha)
    (fun _ _ _ _ _ => hs) (fun _ => trivial) (fun _ => trivial) trivial

theorem setMask_meets (hmask : t.mask = parent.mask) (hs : s.withMask parent.mask = u) :
    World.signals.Meets (.becoming u) (.call (.setMask t.mask) fun _ => t.become) s := by
  refine World.alone_call nofun fun a w ha => become_meets ?_
  cases a with
  | ok old =>
    obtain rfl : w = s.withMask t.mask := ha.2
    rw [hmask, hs]
  | error e => exact (parent.mask_ne_full (hmask ▸ ha.1)).elim

theorem main_signals (hmask : t.mask = parent.mask) (hs : s = parent.atFork t.detached) :
    World.signals.Meets (.becoming (parent.forChild t.detached)) t.main s := by
  rw [main_eq, ← parent.atFork_withDefaults t.detached, ← hs]
  refine setDisposition_meets (setDisposition_meets ?_)
  cases hdetached : t.detached with
  | false => exact setMask_meets hmask rfl
  | true => exact setDisposition_meets (setMask_meets hmask rfl)

theorem main_reaches_become (hmask : t.mask = parent.mask) :
    World.signals.Reaches (t.main, parent.atFork t.detached)
      (t.become, parent.forChild t.detached) := by
  rw [main_eq, ← parent.atFork_withDefaults t.detached, ← hmask]
  have hreset (x : SignalState) (n : Nat) : World.signals.answers x
      (.setDisposition n .byDefault) (.ok ()) (x.withDisposition n .byDefault) := rfl
  have hput (x : SignalState) : World.signals.answers x (.setMask t.mask) (.ok x.mask)
      (x.withMask t.mask) :=
    ⟨rfl, rfl⟩
  refine .call _ (hreset _ _) (.call _ (hreset _ _) ?_)
  cases hdetached : t.detached with
  | false => exact .call _ (hput _) .refl
  | true => exact .call _ (hreset _ _) (.call _ (hput _) .refl)

theorem main_calls_exec_signals (hmask : t.mask = parent.mask) :
    World.signals.Calls t.main (parent.atFork t.detached)
      (.exec t.plan.arguments t.plan.environment) (parent.forChild t.detached) := by
  -- the numbers do not matter here, so all of them may be open
  obtain ⟨-, next, hexec⟩ := become_calls_exec (World.signals_maySetUp (parent.forChild t.detached))
    (s := .before fun _ => some true) (t := t) (by simp)
  exact ⟨next, (main_reaches_become hmask).trans hexec⟩

end ChildTask

def Failure.ofFork {α : Type} : Except Failure α → Bool
  | .ok _ => true
  | .error (.callFailed call _ _) => call = "fork"
  | .error _ => false

section Parent

open Contract (forking startingIn)

variable {α β : Type} {s t u : SignalState} {R : α → SignalState → Prop}

theorem Program.Makes.signals {p : Program α}
    (hp : p.Makes fun c => c.KeepsSignals ∧ ∀ task, c ≠ .fork task) (hR : ∀ a, R a s) :
    World.signals.Meets (startingIn u R) p s :=
  hp.meets (fun _ ht => (World.others_alone _).mp ht) (fun _ _ _ hc ha => hc.1.frame ha)
    (fun _ hc task h => (hc.2 task h).elim) hR (fun _ => trivial) trivial

theorem Program.meets_unblock {q : Contract SignalState α} {m : SignalMask}
    {next : Except Errno SignalMask → Program α} (hm : m = s.mask)
    (hcalls : q.calls (s.withMask .full) (.setMask m))
    (hnext : ∀ old, World.signals.Meets q (next (.ok old)) s) :
    World.signals.Meets q (.call (.setMask m) next) (s.withMask .full) := by
  refine World.alone_call hcalls fun a w ha => ?_
  cases a with
  | ok old =>
    obtain rfl : w = s := by simpa [hm] using ha.2
    exact hnext old
  | error e => exact (s.mask_ne_full (hm ▸ ha.1)).elim

theorem LaunchPlan.forkBlocked_signals (p : LaunchPlan) {b : BlockedSignals} (stdio : ChildStdio)
    (detached : Bool) {parent : SignalState} (hb : b.previous = parent.mask)
    (hs : s = if detached then parent.ignoringChildren else parent) :
    World.signals.Meets (forking parent detached fun r t => Failure.ofFork r = true ∧ t = s)
      (p.forkBlocked b stdio detached).run (s.withMask .full) := by
  have hmask : b.previous = s.mask := by
    rw [hb, hs]
    split <;> rfl
  refine World.alone_call ?_ fun a w ha => ?_
  · rintro task ⟨⟩
    exact ⟨hb, rfl, by rw [hs, SignalState.atFork]⟩
  · cases a with
    | error e =>
      obtain rfl : w = s.withMask .full := ha
      exact Program.meets_unblock hmask nofun fun _ => World.alone_done ⟨rfl, rfl⟩
    | ok pid =>
      obtain rfl : w = s.withMask .full := ha
      exact Program.meets_unblock hmask nofun fun _ => World.alone_done ⟨rfl, rfl⟩

def SignalState.afterLaunch (s : SignalState) (detached : Bool) (r : Except Failure α) :
    SignalState :=
  if detached && Failure.ofFork r then s.ignoringChildren else s

theorem SignalState.afterLaunch_eq_self (s : SignalState) (detached : Bool) {r : Except Failure α}
    (h : Failure.ofFork r = false) : s.afterLaunch detached r = s := by
  simp [afterLaunch, h]

theorem LaunchPlan.ignoreChildTermination_signals {b : BlockedSignals} (hb : b.previous = s.mask)
    (detached : Bool) : World.signals.Meets (forking u detached fun r t => match r with
      | .ok () => t = s.ignoringChildren.withMask .full
      | .error f => t = s ∧ ∃ e, f = .callFailed "signal" "while ignoring SIGCHLD" e)
      (ignoreChildTermination.onLeave b.drop).run (s.withMask .full) := by
  refine World.alone_call nofun fun a w ha => ?_
  cases a with
  | error e =>
    obtain rfl : w = s.withMask .full := ha.2
    exact Program.meets_unblock hb nofun fun _ => World.alone_done ⟨rfl, e, rfl⟩
  | ok _ =>
    obtain rfl : w = (s.withMask .full).ignoringChildren := ha
    exact World.alone_done rfl

theorem LaunchPlan.fork_forking (p : LaunchPlan) (stdio : ChildStdio) (detached : Bool) :
    World.signals.Meets (forking s detached fun r t => t = s.afterLaunch detached r)
      (p.fork stdio detached).run s := by
  refine World.alone_call nofun fun a w ha => ?_
  cases a with
  | error e =>
    obtain rfl : w = s := ha.2
    exact World.alone_done (w.afterLaunch_eq_self detached rfl).symm
  | ok old =>
    obtain ⟨rfl, rfl⟩ := ha
    have hprevious : (BlockedSignals.mk s.mask).previous = s.mask := rfl
    cases detached with
    | false =>
      exact (p.forkBlocked_signals stdio false hprevious rfl).returning fun r t ht => ht.2
    | true =>
      refine (World.meets_action_bind _ _ _).mpr
        ((ignoreChildTermination_signals hprevious true).returning fun r t ht => ?_)
      cases r with
      | error f =>
        obtain ⟨rfl, e, rfl⟩ := ht
        exact World.alone_done (t.afterLaunch_eq_self true rfl).symm
      | ok _ =>
        obtain rfl : t = s.ignoringChildren.withMask .full := ht
        refine (p.forkBlocked_signals stdio true hprevious rfl).returning fun r t ht => ?_
        obtain ⟨hfork, rfl⟩ := ht
        simp [SignalState.afterLaunch, hfork]

theorem LaunchPlan.fork_signals (p : LaunchPlan) (stdio : ChildStdio) (detached : Bool) :
    World.signals.Meets (startingIn (s.forChild detached) fun r t => t = s.afterLaunch detached r)
      (p.fork stdio detached).run s := by
  refine (p.fork_forking stdio detached).weaken (fun t c hc task h => ?_) (fun _ _ h => h)
    (fun _ _ h => h) (fun _ h => h)
  obtain ⟨hmask, rfl, ht⟩ := hc task h
  exact ChildTask.main_signals hmask ht

theorem LaunchPlan.fork_calls_fork (p : LaunchPlan) (stdio : ChildStdio) (detached : Bool)
    (s : SignalState) : World.signals.Calls (p.fork stdio detached).run s
      (.fork ⟨p, stdio, detached, s.mask⟩) (s.atFork detached) := by
  have hblock : World.signals.answers s (.setMask .full) (.ok s.mask) (s.withMask .full) :=
    ⟨rfl, rfl⟩
  cases detached with
  | false => exact ⟨_, .call _ hblock .refl⟩
  | true =>
    have hignore : World.signals.answers (s.withMask .full)
        (.setDisposition Signal.SIGCHLD.number .ignored) (.ok ()) (s.atFork true) := rfl
    exact ⟨_, .call _ hblock (.call _ hignore .refl)⟩

theorem LaunchPlan.fork_returns_signals (p : LaunchPlan) (stdio : ChildStdio) (detached : Bool)
    (s : SignalState) (pid : Pid) : ∃ t, World.signals.Returns (p.fork stdio detached).run s
      (.ok ⟨pid, some p.commandText⟩) t := by
  have hblock : World.signals.answers s (.setMask .full) (.ok s.mask) (s.withMask .full) :=
    ⟨rfl, rfl⟩
  have hforkBlocked (u : SignalState) : ∃ t, World.signals.Returns
      (p.forkBlocked ⟨s.mask⟩ stdio detached).run u (.ok ⟨pid, some p.commandText⟩) t :=
    ⟨_, .call (.ok pid) rfl (.call (.ok u.mask) ⟨rfl, rfl⟩ (.head .note .refl))⟩
  cases detached with
  | false =>
    obtain ⟨t, ht⟩ := hforkBlocked (s.withMask .full)
    exact ⟨t, .call _ hblock ht⟩
  | true =>
    obtain ⟨t, ht⟩ := hforkBlocked (s.atFork true)
    exact ⟨t, .call _ hblock (.call (.ok ()) rfl ht)⟩

end Parent

/-- When a launch is over, its thread has the mask from before, and the dispositions are those from
before, except that children are ignored from then on if that was asked for and did not fail. A
launch may come as far as a child, and every child as far as its program. It becomes that with the
mask from before, and with the dispositions from before except that it is terminated and interrupted
by default, and not told about children of its own if it is detached. -/
theorem LaunchPlan.fork_restores_signals (p : LaunchPlan) (stdio : ChildStdio) (detached : Bool)
    (s : SignalState) :
    (∀ r t, World.signals.Returns (p.fork stdio detached).run s r t →
      t = s.afterLaunch detached r) ∧
    (∀ pid, ∃ t, World.signals.Returns (p.fork stdio detached).run s
      (.ok ⟨pid, some p.commandText⟩) t) ∧
    (∃ t, World.signals.Calls (p.fork stdio detached).run s
      (.fork ⟨p, stdio, detached, s.mask⟩) t) ∧
    ∀ task t, World.signals.Calls (p.fork stdio detached).run s (.fork task) t →
      World.signals.Calls task.main t (.exec task.plan.arguments task.plan.environment)
        (s.forChild detached) ∧
      ∀ arguments environment u,
        World.signals.Calls task.main t (.exec arguments environment) u →
          u = s.forChild detached := by
  have h := p.fork_signals (s := s) stdio detached
  refine ⟨fun r t hr => h.returns hr, p.fork_returns_signals stdio detached s,
    ⟨_, p.fork_calls_fork stdio detached s⟩, ?_⟩
  rintro task t ⟨next, hfork⟩
  obtain ⟨hmask, rfl, rfl⟩ := (p.fork_forking (s := s) stdio detached).calls hfork task rfl
  refine ⟨ChildTask.main_calls_exec_signals hmask, ?_⟩
  rintro arguments environment u ⟨next', hexec⟩
  exact (ChildTask.main_signals hmask rfl).calls hexec arguments environment rfl

end OwnedHandles
