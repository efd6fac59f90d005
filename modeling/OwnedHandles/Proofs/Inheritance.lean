import OwnedHandles.Proofs.Marshalling
import OwnedHandles.Proofs.Signals

namespace OwnedHandles

namespace SignalState

def image (s : SignalState) : SignalState := { s with dispositions := s.dispositions.afterExec }

theorem afterExec_eq_ignored {d : Dispositions} {n : Nat} :
    d.afterExec n = .ignored ↔ d n = .ignored := by
  unfold Dispositions.afterExec
  cases d n <;> simp

theorem image_ignoringChildren_of_ne (s : SignalState) (detached : Bool) {n : Nat}
    (hn : n ≠ Signal.SIGCHLD.number) :
    (s.ignoringChildren.forChild detached).image.dispositions n =
      (s.forChild detached).image.dispositions n := by
  simp [image, forChild, ignoringChildren, withDisposition, Dispositions.afterExec, hn]

theorem image_ignoringChildren_iff (s : SignalState) (detached : Bool) :
    (s.ignoringChildren.forChild detached).image = (s.forChild detached).image ↔
      detached = true ∨ s.dispositions Signal.SIGCHLD.number = .ignored := by
  have hnumbers : Signal.SIGCHLD.number ≠ Signal.SIGTERM.number ∧
      Signal.SIGCHLD.number ≠ Signal.SIGINT.number := by decide
  -- only one disposition can differ, so it decides
  have hchild : (s.ignoringChildren.forChild detached).image = (s.forChild detached).image ↔
      (s.ignoringChildren.forChild detached).image.dispositions Signal.SIGCHLD.number =
        (s.forChild detached).image.dispositions Signal.SIGCHLD.number := by
    refine ⟨fun h => by rw [h], fun h => ext_of rfl (funext fun n => ?_)⟩
    by_cases hn : n = Signal.SIGCHLD.number
    · rw [hn, h]
    · exact s.image_ignoringChildren_of_ne detached hn
  rw [hchild]
  cases detached with
  | true => simp [image, forChild, Dispositions.afterExec]
  | false =>
    have hbefore : (s.ignoringChildren.forChild false).image.dispositions
        Signal.SIGCHLD.number = .ignored := by
      simp [image, forChild, ignoringChildren, withDisposition, Dispositions.afterExec, hnumbers]
    rw [hbefore, eq_comm]
    change (s.forChild false).dispositions.afterExec _ = _ ↔ _
    rw [afterExec_eq_ignored]
    simp [forChild, hnumbers]

@[simp] theorem ignoringChildren_ignoringChildren (s : SignalState) :
    s.ignoringChildren.ignoringChildren = s.ignoringChildren := by
  refine ext_of rfl ?_
  funext n
  simp only [ignoringChildren, withDisposition, Dispositions.set]
  grind

theorem ignoringChildren_or (s : SignalState) (a b : Bool) :
    (if b then (if a then s.ignoringChildren else s).ignoringChildren
      else if a then s.ignoringChildren else s) = if a || b then s.ignoringChildren else s := by
  cases a <;> cases b <;> simp

end SignalState

/-- Apart from the child that it starts, the program is not seen by anything. -/
def Program.LeavesSignals {α : Type} (p : Program α) : Prop :=
  ∀ s, World.signals.Meets (.startingIn (s.forChild false) fun _ t => t = s) p s

theorem Program.leavesSignals_compositional : Compositional @LeavesSignals where
  ordinary hp s := by
    refine Makes.signals (hp.mono fun c hc => ⟨hc.2, ?_⟩) fun _ => rfl
    rintro task rfl
    exact hc.1
  bind hp hf s := by
    refine (hp s).bind fun a t ht => ?_
    subst ht
    exact hf a t
  leaving hp hfin s := by
    refine hfin.meets_leaving (fun _ _ _ _ hc ha => hc.2.frame ha) (fun t c hc task h => ?_)
      (fun _ _ => trivial) (fun _ => trivial) (hp s)
    subst h
    exact hc.1.elim

theorem Failure.OfMarshalling.ofFork {α : Type} {e : Failure} (h : e.OfMarshalling) :
    ofFork (.error e : Except Failure α) = false := by
  cases e <;> first | rfl | exact h.elim

theorem SignalState.afterLaunch_map {α β : Type} (s : SignalState) (detached : Bool)
    (f : α → β) (r : Except Failure α) :
    s.afterLaunch detached (r.map f) = s.afterLaunch detached r := by
  cases r with
  | ok a => rfl
  | error e => cases e <;> rfl

namespace Executable

variable {s : SignalState}

theorem startAndForget_signals (e : Executable) (params : List Bytes) :
    World.signals.Meets (.startingIn (s.forChild true) fun r t => t = s.afterLaunch true r)
      (Launch.startAndForget e params).action.run s := by
  refine (World.meets_action_bind _ _ _).mpr ?_
  unfold startAndForget plan
  cases hplan : LaunchPlan.make e.program params none with
  | error f =>
    have hfailure := LaunchPlan.ofMarshalling_of_make hplan
    exact World.alone_done (World.alone_done (s.afterLaunch_eq_self true hfailure.ofFork).symm)
  | ok plan =>
    refine (plan.fork_signals .inherit true).returning fun r t ht => ?_
    obtain rfl : t = s.afterLaunch true (r.map fun _ => ()) := by rw [s.afterLaunch_map, ht]
    cases r with
    | error f => exact World.alone_done rfl
    | ok process => exact World.alone_done rfl

end Executable

namespace Launch

variable {s t i j : SignalState}

theorem action_signals (l : Launch) :
    World.signals.Meets (.startingIn (s.forChild l.forgets) fun r t =>
      t = s.afterLaunch l.forgets r) l.action.run s := by
  cases hl : l.forgets with
  | false =>
    refine Program.leavesSignals_compositional.launch l (fun plan stdio _ u => ?_) s
    rw [hl]
    exact plan.fork_signals stdio false
  | true =>
    cases l with
    | startAndForget e params => exact e.startAndForget_signals params
    | start => cases hl
    | capture => cases hl
    | redirect => cases hl

/-- The launch may start a child that becomes its program, whose image starts with this. -/
def StartsImage (l : Launch) (s i : SignalState) : Prop :=
  ∃ task next t, World.signals.Reaches (l.action.run, s) (.call (.fork task) next, t) ∧
    ∃ arguments environment next' u,
      World.signals.Reaches (task.main, t) (.call (.exec arguments environment) next', u) ∧
      i = u.image

theorem StartsImage.eq {l : Launch} (h : l.StartsImage s i) : i = (s.forChild l.forgets).image := by
  obtain ⟨task, next, t, hfork, arguments, environment, next', u, hexec, rfl⟩ := h
  have hchild : World.signals.Meets (.becoming (s.forChild l.forgets)) task.main t :=
    l.action_signals.calls hfork task rfl
  rw [hchild.calls hexec arguments environment rfl]

def all : List Launch → Program (List (Except Failure Unit))
  | [] => return []
  | l :: ls => do
    let r ← l.action.attempt
    return r :: (← all ls)

def forgot (ls : List Launch) (rs : List (Except Failure Unit)) : Bool :=
  (ls.zip rs).any fun x => x.1.forgets && Failure.ofFork x.2

theorem all_signals (ls : List Launch) :
    World.signals.Meets (.result fun rs t =>
      t = if forgot ls rs then s.ignoringChildren else s) (all ls) s := by
  -- what a launch leaves behind is the beginning of the rest: ignoring twice is ignoring once
  induction ls generalizing s with
  | nil => exact World.alone_done rfl
  | cons l ls ih =>
    refine (World.meets_bind _ _ _).mpr (l.action_signals.weaken (fun _ _ _ => trivial)
      (fun r t ht => ?_) (fun _ _ _ => trivial) fun _ _ => trivial)
    refine (World.meets_bind _ _ _).mpr (ih.returning fun rs u hu => World.alone_done ?_)
    subst ht hu
    exact s.ignoringChildren_or _ _

section Existence

variable {e : Executable} {params : List Bytes} {env : Option Environment} {plan : LaunchPlan}

theorem start_action (hplan : LaunchPlan.make e.program params env = .ok plan) :
    (start e params env).action = (do let _ ← plan.fork .inherit false : Action Unit) := by
  change (do let _ ← (MonadExcept.ofExcept (LaunchPlan.make e.program params env) >>= fun p =>
    p.fork .inherit false : Action ProcessHandle) : Action Unit) = _
  rw [hplan]
  rfl

theorem startAndForget_action (hplan : LaunchPlan.make e.program params none = .ok plan) :
    (startAndForget e params).action = (do let _ ← plan.fork .inherit true : Action Unit) := by
  change (do let _ ← (MonadExcept.ofExcept (LaunchPlan.make e.program params none) >>= fun p =>
    p.fork .inherit true : Action ProcessHandle) : Action Unit) = _
  rw [hplan]
  rfl

theorem start_startsImage (hplan : LaunchPlan.make e.program params env = .ok plan)
    (s : SignalState) : ∃ i, (start e params env).StartsImage s i := by
  let task : ChildTask := ⟨plan, .inherit, false, s.mask⟩
  have hfork : World.signals.Calls (start e params env).action.run s (.fork task)
      (s.atFork false) := by
    rw [start_action hplan]
    exact (plan.fork_calls_fork .inherit false s).andThen _
  obtain ⟨next, hfork⟩ := hfork
  have hexec : World.signals.Calls task.main (s.atFork false) (.exec plan.arguments plan.environment)
      (s.forChild false) := ChildTask.main_calls_exec_signals rfl
  obtain ⟨next', hexec⟩ := hexec
  exact ⟨_, task, next, _, hfork, _, _, next', _, hexec, rfl⟩

theorem startAndForget_returns (hplan : LaunchPlan.make e.program params none = .ok plan)
    (s : SignalState) :
    ∃ t, World.signals.Returns (all [startAndForget e params]) s [.ok ()] t := by
  unfold all
  rw [startAndForget_action hplan]
  exact ⟨_, .call (.ok s.mask) ⟨rfl, rfl⟩ (.call (.ok ()) rfl (.call (.ok 7) rfl
    (.call (.ok SignalMask.full.settable) ⟨rfl, rfl⟩ (.head .note .refl))))⟩

end Existence

/-- What the child of a launch sees of the launches before it: nothing, except that it starts with
its children ignored if one of these forgot its child, unless its own launch forgets it or the
process ignored its children to begin with. -/
theorem image_after_launches {ls : List Launch} {l : Launch} {rs : List (Except Failure Unit)}
    (hrun : World.signals.Returns (all ls) s rs t) (hi : l.StartsImage t i)
    (hj : l.StartsImage s j) :
    i.mask = j.mask ∧ (∀ n ≠ Signal.SIGCHLD.number, i.dispositions n = j.dispositions n) ∧
      (i = j ↔ l.forgets = true ∨ s.dispositions Signal.SIGCHLD.number = .ignored ∨
        forgot ls rs = false) := by
  obtain rfl := hi.eq
  obtain rfl := hj.eq
  obtain rfl := (all_signals ls).returns hrun
  cases forgot ls rs with
  | false => simp
  | true => exact ⟨rfl, fun n hn => s.image_ignoringChildren_of_ne _ hn, by
      simpa using s.image_ignoringChildren_iff l.forgets⟩

/-- A program that is started after another one was started and forgotten, by a process that does
nothing special with its signals. -/
theorem image_after_launches_of_shell :
    let s : SignalState := ⟨.none, fun _ => .byDefault, by decide⟩
    let l : Launch := .start Executable.shell [] none
    ∃ rs t i j, World.signals.Returns (all [.startAndForget Executable.shell []]) s rs t ∧
      l.StartsImage t i ∧ l.StartsImage s j ∧ i.mask = j.mask ∧
      (∀ n ≠ Signal.SIGCHLD.number, i.dispositions n = j.dispositions n) ∧ i ≠ j := by
  intro s l
  obtain ⟨plan, hplan⟩ := Executable.shell_plan
  obtain ⟨t, hrun⟩ := startAndForget_returns hplan s
  obtain ⟨i, hi⟩ := start_startsImage hplan t
  obtain ⟨j, hj⟩ := start_startsImage hplan s
  obtain ⟨hmask, hother, hsame⟩ := image_after_launches hrun hi hj
  refine ⟨_, t, i, j, hrun, hi, hj, hmask, hother, fun heq => ?_⟩
  exact absurd (hsame.mp heq) (by decide)

/-- A process that ignores nothing starts and forgets one program. The next program that it starts
has its children ignored from the beginning; the same program started first has not. -/
theorem forgetting_is_inherited :
    let s : SignalState := ⟨.none, fun _ => .byDefault, by decide⟩
    let l : Launch := .start Executable.shell [] none
    (∃ t i, World.signals.Returns (all [.startAndForget Executable.shell []]) s [.ok ()] t ∧
      l.StartsImage t i ∧ i.dispositions Signal.SIGCHLD.number = .ignored) ∧
    (∃ j, l.StartsImage s j) ∧
      ∀ j, l.StartsImage s j → j.dispositions Signal.SIGCHLD.number = .byDefault := by
  intro s l
  obtain ⟨plan, hplan⟩ := Executable.shell_plan
  obtain ⟨t, hrun⟩ := startAndForget_returns hplan s
  obtain ⟨i, hi⟩ := start_startsImage hplan t
  have ht : t = s.ignoringChildren := (all_signals _).returns hrun
  refine ⟨⟨t, i, hrun, hi, ?_⟩, start_startsImage hplan s, fun j hj => ?_⟩
  · rw [hi.eq, ht]
    decide
  · rw [hj.eq]
    decide

end Launch

end OwnedHandles
