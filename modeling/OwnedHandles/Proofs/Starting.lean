import OwnedHandles.Proofs.Offspring

namespace OwnedHandles

theorem Program.Finishes.returns {σ α : Type} {w : World σ} {P : Call → Prop} {p : Program α}
    (hfin : p.Finishes) (hp : p.Makes P) (hcalls : ∀ s c, P c → ∃ a t, w.answers s c a t) (s : σ) :
    ∃ a t, w.Returns p s a t := by
  induction p generalizing s with
  | done a => exact ⟨a, s, .refl⟩
  | abort m => exact hfin.elim
  | unfinished => exact hfin.elim
  | note e p ih =>
    obtain ⟨a, t, h⟩ := ih hfin hp s
    exact ⟨a, t, .head .note h⟩
  | call c next ih =>
    obtain ⟨answer, u, hanswer⟩ := hcalls s c hp.1
    obtain ⟨a, t, h⟩ := ih answer (hfin answer) (hp.2 answer) u
    exact ⟨a, t, .call answer hanswer h⟩

theorem Action.ofExcept_returns {σ α : Type} {w : World σ} {s : σ} {r : Except Failure α} {a : α}
    (h : r = .ok a) : w.Returns (MonadExcept.ofExcept r : Action α).run s (.ok a) s := by
  rw [h]
  exact .refl

theorem Action.lift_returns {σ α : Type} {w : World σ} {p : Program α} {s t : σ} {a : α}
    (h : w.Returns p s a t) : w.Returns (ExceptT.lift p : Action α).run s (.ok a) t :=
  h.bind .refl

section Opening

variable {s : Table}

theorem Table.Bounded.addFile (h : s.Bounded) (fd : Fd) (path : Bytes) (closeOnExec : Bool) :
    (s.addFile fd path closeOnExec).Bounded :=
  h.put fd _

theorem PipeEnds.openNamed_returns (h : s.Bounded) (stream : String) :
    ∃ p t, World.tables.Returns (openNamed stream).run s (.ok p) t ∧ t.Bounded := by
  obtain ⟨r, w, hlow⟩ := h.exists_areLowest
  exact ⟨_, _, .call (.ok (r, w)) ⟨hlow, rfl⟩ .refl, h.addPipe r w⟩

theorem StreamEnds.openPipes_returns (h : s.Bounded) :
    ∃ ends t, World.tables.Returns openPipes.run s (.ok ends) t := by
  obtain ⟨first, t, hfirst, ht⟩ := PipeEnds.openNamed_returns h "stdin"
  obtain ⟨second, u, hsecond, hu⟩ := PipeEnds.openNamed_returns ht "stdout"
  obtain ⟨third, v, hthird, -⟩ := PipeEnds.openNamed_returns hu "stderr"
  exact ⟨_, v, hfirst.andThen (hsecond.onLeave.andThen (hthird.onLeave.andThen .refl))⟩

theorem Descriptor.openFile_returns (h : s.Bounded) (file : File) (flags : OpenFlags)
    (perm : Mode) :
    ∃ d fd t, World.tables.Returns (openFile file flags perm).run s (.ok d) t ∧
      d.fd = some fd ∧ t.Bounded := by
  obtain ⟨fd, hlow⟩ := h.exists_isLowest
  exact ⟨_, fd, _, .call (some .regular) rfl (.call (.ok fd) ⟨hlow, rfl⟩
    (.head .note (.head .note .refl))), rfl, h.addFile fd file.path _⟩

theorem Program.Finishes.returns_closing {α : Type} {p : Program α} (hfin : p.Finishes)
    (hp : p.Makes fun c => ∃ fd, c = .close fd) (s : Table) :
    ∃ a t, World.tables.Returns p s a t := by
  refine hfin.returns hp (fun s c hc => ?_) s
  obtain ⟨fd, rfl⟩ := hc
  exact ⟨.ok (), s.remove fd, rfl⟩

end Opening

namespace LaunchPlan

theorem fork_calls_tables (p : LaunchPlan) (stdio : ChildStdio) (s : Table) :
    World.tables.Calls (p.fork stdio false).run s (.fork ⟨p, stdio, false, .none⟩) s :=
  ⟨_, .call (.ok .none) rfl .refl⟩

theorem fork_returns_tables (p : LaunchPlan) (stdio : ChildStdio) (s : Table) (pid : Pid) :
    World.tables.Returns (p.fork stdio false).run s (.ok ⟨pid, some p.commandText⟩) s :=
  .call (.ok .none) rfl (.call (.ok pid) rfl (.call (.ok .none) rfl (.head .note .refl)))

end LaunchPlan

namespace Executable

variable {given : Fd → Option Bool} {e : Executable} {params : List Bytes}
  {env : Option Environment} {plan : LaunchPlan}

theorem StreamEnds.drop_returns (ends : StreamEnds) (s : Table) :
    ∃ t, World.tables.Returns ends.drop s () t := by
  obtain ⟨_, t, h⟩ := (Descriptor.dropAll_finishes ends.toList).returns_closing
    (ends.drop_makes fun fd => ⟨fd, rfl⟩) s
  exact ⟨t, h⟩

section Capture

variable (hgiven : (Table.before given).Bounded)

include hgiven

theorem exists_piped : ∃ child parent stdio t,
    World.tables.Returns StreamEnds.openPipes.run (.before given) (.ok (child, parent)) t ∧
      child.stdio = .ok stdio := by
  obtain ⟨⟨child, parent⟩, t, hopened⟩ := StreamEnds.openPipes_returns hgiven
  have hpiped : World.tables.Meets (.launching given (.pipe 0 .read) (.pipe 1 .write)
      (.pipe 2 .write) fun ends t => ∃ n, t.Piped given n ends.1 ends.2) StreamEnds.openPipes.run
      (.before given) := StreamEnds.openPipes_tables
  obtain ⟨n, hn⟩ := hpiped.returns hopened _ rfl
  exact ⟨child, parent, _, t, hopened, hn.stdio_ok⟩

theorem startOnPipes_calls_fork (plan : LaunchPlan) : ∃ stdio t,
    World.tables.Calls (startOnPipes plan).run (.before given)
      (.fork ⟨plan, stdio, false, .none⟩) t := by
  obtain ⟨child, parent, stdio, t, hopened, hstdio⟩ := exists_piped hgiven
  refine ⟨stdio, t, hopened.calls_andThen ?_⟩
  refine (Action.ofExcept_returns hstdio).onLeave.calls_andThen ?_
  exact ((plan.fork_calls_tables stdio t).leaving _ _).andThen _

theorem startOnPipes_returns (plan : LaunchPlan) (pid : Pid) : ∃ parent t,
    World.tables.Returns (startOnPipes plan).run (.before given)
      (.ok (⟨pid, some plan.commandText⟩, parent)) t := by
  obtain ⟨child, parent, stdio, t, hopened, hstdio⟩ := exists_piped hgiven
  obtain ⟨u, hdropped⟩ := StreamEnds.drop_returns child t
  refine ⟨parent, u, hopened.andThen ((Action.ofExcept_returns hstdio).onLeave.andThen ?_)⟩
  exact (plan.fork_returns_tables stdio t pid).onLeave.andThen
    ((Action.lift_returns hdropped).andThen .refl)

theorem capture_calls_fork (hplan : LaunchPlan.make e.program params env = .ok plan) (self : Pid)
    (rounds : Nat) : ∃ stdio t, World.tables.Calls (e.capture self params env rounds).run
      (.before given) (.fork ⟨plan, stdio, false, .none⟩) t := by
  obtain ⟨stdio, t, h⟩ := startOnPipes_calls_fork hgiven plan
  exact ⟨stdio, t, (Action.ofExcept_returns hplan).calls_andThen (h.andThen _)⟩

theorem capture_calls_wait (hplan : LaunchPlan.make e.program params env = .ok plan) (self : Pid)
    (rounds : Nat) : ∃ pid t, World.tables.Calls (e.capture self params env rounds).run
      (.before given) (.wait pid) t := by
  -- any process but the one that waits
  have hne : self + 1 ≠ self := Int.ne_of_gt (Int.lt_succ self)
  obtain ⟨parent, t, h⟩ := startOnPipes_returns hgiven plan (self + 1)
  obtain ⟨stdin, u, hclosed⟩ := (Descriptor.closeSafe_finishes parent.stdin).returns_closing
    (parent.stdin.closeSafe_makes fun fd => ⟨fd, rfl⟩) t
  have hjoin : World.tables.Calls
      (((⟨self + 1, some plan.commandText⟩ : ProcessHandle).join self false).run) u
      (.wait (self + 1)) u := by
    unfold ProcessHandle.join
    rw [if_neg hne]
    exact ⟨_, .refl⟩
  refine ⟨self + 1, u, (Action.ofExcept_returns hplan).calls_andThen ?_⟩
  refine h.calls_andThen ((Action.lift_returns hclosed).calls_andThen ?_)
  exact ((hjoin.leaving _ _).bind _).andThen _

end Capture

theorem redirect_calls_fork (hgiven : (Table.before given).Bounded)
    (hplan : LaunchPlan.make e.program params env = .ok plan) (input output error : File)
    (perm : Mode) : ∃ stdio t, World.tables.Calls
      (e.redirect params env input output error perm).run (.before given)
      (.fork ⟨plan, stdio, false, .none⟩) t := by
  obtain ⟨stdin, i, t, hin, hi, ht⟩ := Descriptor.openFile_returns hgiven input reading perm
  obtain ⟨stdout, o, u, hout, ho, hu⟩ := Descriptor.openFile_returns ht output writing perm
  obtain ⟨stderr, x, v, herr, hx, -⟩ := Descriptor.openFile_returns hu error writing perm
  refine ⟨.redirect i o x, v, (Action.ofExcept_returns hplan).calls_andThen ?_⟩
  refine hin.calls_andThen (hout.onLeave.calls_andThen (herr.onLeave.calls_andThen ?_))
  refine (Action.ofExcept_returns (ChildStdio.ofDescriptors_ok hi ho hx)).onLeave.calls_andThen ?_
  exact ((plan.fork_calls_tables _ v).leaving _ _).andThen _

end Executable

/-- Every child that the action starts may become its program, and when it does, that finds these
three streams on the standard numbers, and on the others what it would have inherited anyway. -/
def Action.WiresStreams {α : Type} (p : Action α) (given : Fd → Option Bool)
    (stdin stdout stderr : Origin) : Prop :=
  ∀ task s, World.tables.Calls p.run (.before given) (.fork task) s →
    (∃ t, World.tables.Calls task.main s (.exec task.plan.arguments task.plan.environment) t) ∧
    ∀ arguments environment t, World.tables.Calls task.main s (.exec arguments environment) t →
      t.image = Table.wired given stdin stdout stderr

def Action.WaitsWithoutWriteEnds {α : Type} (p : Action α) (given : Fd → Option Bool) : Prop :=
  ∀ pid s, World.tables.Calls p.run (.before given) (.wait pid) s → s.HoldsNoWriteEnd

/-- The action may come to start a child for the plan. -/
def Action.Starts {α : Type} (p : Action α) (given : Fd → Option Bool) (plan : LaunchPlan) : Prop :=
  ∃ task s, task.plan = plan ∧ World.tables.Calls p.run (.before given) (.fork task) s

section Runs

variable {α : Type} {given : Fd → Option Bool} {stdin stdout stderr : Origin} {p : Action α}
  {P : α → Table → Prop}

theorem Action.wiresStreams_of_meets
    (h : World.tables.Meets (.launching given stdin stdout stderr P) p.run (.before given)) :
    p.WiresStreams given stdin stdout stderr := by
  rintro task s ⟨next, hfork⟩
  obtain ⟨hopen, hchild⟩ : (Call.fork task).WellTimed given stdin stdout stderr s := h.calls hfork
  refine ⟨ChildTask.main_calls_exec hopen, ?_⟩
  rintro arguments environment t ⟨next', hexec⟩
  exact hchild.calls hexec arguments environment rfl

theorem Action.waitsWithoutWriteEnds_of_meets
    (h : World.tables.Meets (.launching given stdin stdout stderr P) p.run (.before given)) :
    p.WaitsWithoutWriteEnds given := by
  rintro pid s ⟨next, hwait⟩
  exact h.calls hwait

end Runs

/-- Whatever numbers the parent has open, closed on exec or not, the program of a capture finds the
ends of the three pipes that are meant for it on the standard numbers and that of a redirection
its three files. On other numbers it finds what the parent had there and did not close on exec.
No write end of a pipe is left to a parent that waits. A launch that can be marshalled may come as
far as its child, unless all numbers are taken, and a capture as far as its wait. -/
theorem launches_wire_streams (given : Fd → Option Bool) :
    (∀ (e : Executable) self params env rounds,
      (e.capture self params env rounds).WiresStreams given (.pipe 0 .read) (.pipe 1 .write)
        (.pipe 2 .write) ∧
      (e.capture self params env rounds).WaitsWithoutWriteEnds given ∧
      ∀ plan, LaunchPlan.make e.program params env = .ok plan → (Table.before given).Bounded →
        (e.capture self params env rounds).Starts given plan ∧
        ∃ pid s, World.tables.Calls (e.capture self params env rounds).run (.before given)
          (.wait pid) s) ∧
    ∀ (e : Executable) params env input output error perm,
      (e.redirect params env input output error perm).WiresStreams given (.opened 0 input.path)
        (.opened 1 output.path) (.opened 2 error.path) ∧
      ∀ plan, LaunchPlan.make e.program params env = .ok plan → (Table.before given).Bounded →
        (e.redirect params env input output error perm).Starts given plan := by
  constructor
  · intro e self params env rounds
    have h : World.tables.Meets (.launching given _ _ _ _) _ (.before given) :=
      e.capture_tables self params env rounds
    refine ⟨Action.wiresStreams_of_meets h, Action.waitsWithoutWriteEnds_of_meets h, ?_⟩
    intro plan hplan hgiven
    obtain ⟨stdio, s, hfork⟩ := Executable.capture_calls_fork hgiven hplan self rounds
    exact ⟨⟨_, s, rfl, hfork⟩, Executable.capture_calls_wait hgiven hplan self rounds⟩
  · intro e params env input output error perm
    refine ⟨Action.wiresStreams_of_meets (e.redirect_tables params env input output error perm), ?_⟩
    intro plan hplan hgiven
    obtain ⟨stdio, s, hfork⟩ := Executable.redirect_calls_fork hgiven hplan input output error perm
    exact ⟨_, s, rfl, hfork⟩

/-- A shell that is started by a parent without standard streams, with one number on its standard
output that is closed on exec and another one that is not. -/
theorem shell_finds_streams :
    let given : Fd → Option Bool := fun n =>
      if n = 1 then some true else if n = 5 then some false else none
    let captured := Executable.shell.capture 1 [] none 10
    let redirected := Executable.shell.redirect [] none ⟨[97]⟩ ⟨[98]⟩ ⟨[99]⟩ 0
    ∃ plan, LaunchPlan.make Executable.shell.program [] none = .ok plan ∧
      (Table.before given).Bounded ∧
      (captured.Starts given plan ∧
        captured.WiresStreams given (.pipe 0 .read) (.pipe 1 .write) (.pipe 2 .write)) ∧
      ((∃ pid s, World.tables.Calls captured.run (.before given) (.wait pid) s) ∧
        captured.WaitsWithoutWriteEnds given) ∧
      redirected.Starts given plan ∧
        redirected.WiresStreams given (.opened 0 [97]) (.opened 1 [98]) (.opened 2 [99]) := by
  intro given captured redirected
  obtain ⟨plan, hplan⟩ := Executable.shell_plan
  have hgiven : (Table.before given).Bounded :=
    .before fun n (hn : (6 : Nat) ≤ n) => by
      have hne : n ≠ 1 ∧ n ≠ 5 := ⟨Nat.ne_of_gt (by omega), Nat.ne_of_gt (by omega)⟩
      simp [given, hne]
  obtain ⟨hcapture, hredirect⟩ := launches_wire_streams given
  obtain ⟨hwired, hwaits, hruns⟩ := hcapture Executable.shell 1 [] none 10
  obtain ⟨hwired', hruns'⟩ := hredirect Executable.shell [] none ⟨[97]⟩ ⟨[98]⟩ ⟨[99]⟩ 0
  obtain ⟨hstarts, hwait⟩ := hruns plan hplan hgiven
  exact ⟨plan, hplan, hgiven, ⟨hstarts, hwired⟩, ⟨hwait, hwaits⟩, hruns' plan hplan hgiven, hwired'⟩

end OwnedHandles
