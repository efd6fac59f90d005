import Mathlib.Data.Finset.Basic
import OwnedHandles.Proofs.Calls
import OwnedHandles.Proofs.Runs

namespace OwnedHandles

structure Family where
  children : Finset Pid
  started : List Pid
  waits : List (Pid × Except Errno WaitStatus)

namespace Family

/-- An answer that tells the end of a process. A signal beyond the classic ones has no name to be
reported by, and the wait that takes such an end fails with `EINVAL`. -/
def reaps : Except Errno WaitStatus → Bool
  | .ok (.exited ..) | .ok (.signaled ..) | .error .EINVAL => true
  | _ => false

def born (s : Family) (pid : Pid) : Family :=
  { s with children := insert pid s.children, started := s.started ++ [pid] }

def waited (s : Family) (pid : Pid) (a : Except Errno WaitStatus) : Family :=
  { s with children := if reaps a then s.children.erase pid else s.children
           waits := s.waits ++ [(pid, a)] }

end Family

/-- What a call does to the children. While the statuses of children are kept, a wait for a child
is not told that there is none. -/
def Call.changesFamily (s : Family) : (c : Call) → c.Answer → Family → Prop
  | .fork _, .ok pid, t => pid ∉ s.children ∧ t = s.born pid
  | .wait pid, a, t => (pid ∈ s.children → a ≠ .error .ECHILD) ∧ t = s.waited pid a
  | _, _, t => t = s

def World.family : World Family := World.alone Call.changesFamily

theorem Call.SparesChildren.frame {c : Call} (hc : c.SparesChildren) {s t : Family} {a : c.Answer}
    (h : c.changesFamily s a t) : t = s := by
  cases c <;> first | exact hc.elim | exact h

section Steps

variable {α : Type} {s : Family} {R : α → Family → Prop}

theorem Program.Makes.family {p : Program α} (hp : p.Makes Call.SparesChildren) (hR : ∀ a, R a s) :
    World.family.Meets (.result R) p s :=
  hp.meets (fun _ ht => (World.others_alone _).mp ht) (fun _ _ _ hc ha => hc.frame ha)
    (fun _ _ => trivial) hR (fun _ => trivial) trivial

theorem Program.Makes.family_leaving {failed : α → Bool} {fin : Program Unit} {p : Program α}
    (hfin : fin.Makes Call.SparesChildren) (hp : World.family.Meets (.result R) p s) :
    World.family.Meets (.result R) (Program.leaving failed fin p) s :=
  hfin.meets_leaving (fun _ _ _ _ hc ha => hc.frame ha) (fun _ _ _ => trivial)
    (fun _ _ => trivial) (fun _ => trivial) hp

def Family.Started (s : Family) : Except Failure ProcessHandle → Family → Prop
  | .ok p, t => p.pid ∉ s.children ∧ t = s.born p.pid
  | .error _, t => t = s

theorem LaunchPlan.forkBlocked_family (p : LaunchPlan) (b : BlockedSignals) (stdio : ChildStdio)
    (detached : Bool) :
    World.family.Meets (.result s.Started) (p.forkBlocked b stdio detached).run s := by
  refine (World.meets_ask_bind _ _ _).mpr fun t ht => ⟨trivial, fun a u ha => ?_⟩
  obtain rfl : t = s := (World.others_alone _).mp ht
  cases a with
  | error e =>
    obtain rfl : u = t := ha
    apply (World.meets_lift_bind _ _ _).mpr
    apply (b.drop_makes fun _ => trivial).family
    intro _ v hv
    exact (World.others_alone _).mp hv
  | ok pid =>
    obtain ⟨hpid, rfl⟩ : pid ∉ t.children ∧ u = t.born pid := ha
    apply (World.meets_lift_bind _ _ _).mpr
    apply (b.restoreLogged_makes fun _ => trivial).family
    intro _ v hv
    exact ⟨hpid, (World.others_alone _).mp hv⟩

theorem LaunchPlan.fork_family (p : LaunchPlan) (stdio : ChildStdio) :
    World.family.Meets (.result s.Started) (p.fork stdio false).run s := by
  apply (World.meets_action_bind _ _ _).mpr
  apply (BlockedSignals.blockAll_makes fun _ => trivial).family
  intro r
  cases r with
  | error e => exact fun v hv => (World.others_alone _).mp hv
  | ok b => exact p.forkBlocked_family b stdio false

theorem Executable.startOnPipes_family (plan : LaunchPlan) :
    World.family.Meets (.result fun r t => s.Started (r.map Prod.fst) t)
      (Executable.startOnPipes plan).run s := by
  apply (World.meets_action_bind _ _ _).mpr
  apply (StreamEnds.openPipes_makes trivial fun _ => trivial).family
  intro r
  cases r with
  | error e => exact fun v hv => (World.others_alone _).mp hv
  | ok ends =>
    obtain ⟨child, parent⟩ := ends
    have hleave : (parent.drop.bind fun _ => child.drop).Makes Call.SparesChildren :=
      (parent.drop_makes fun _ => trivial).bind fun _ => child.drop_makes fun _ => trivial
    apply (World.meets_action_bind _ _ _).mpr
    apply (Program.Makes.leaving (Action.makes_ofExcept child.stdio) hleave).family
    intro r
    cases r with
    | error e => exact fun v hv => (World.others_alone _).mp hv
    | ok stdio =>
      refine (World.meets_action_bind _ _ _).mpr (hleave.family_leaving ?_)
      apply (plan.fork_family stdio).returning
      intro r t ht
      cases r with
      | error e => exact fun v hv => (World.others_alone _).mp hv ▸ ht
      | ok process =>
        apply (World.meets_lift_bind _ _ _).mpr
        apply (child.drop_makes fun _ => trivial).family
        intro _ v hv
        exact (World.others_alone _).mp hv ▸ ht

theorem Family.reaps_of_outcome {status : WaitStatus} {code : Int}
    (h : status.outcome false = .ok code) : reaps (.ok status) = true := by
  cases status <;> first | rfl | cases h

def Family.Joined (s : Family) (pid : Pid) (r : Except Failure Int) (t : Family) : Prop :=
  ∃ a, (pid ∈ s.children → a ≠ .error .ECHILD) ∧ t = s.waited pid a ∧
    ∀ code, r = .ok code → reaps a = true

theorem ProcessHandle.join_family (p : ProcessHandle) (self : Pid) :
    World.family.Meets (.result (s.Joined p.pid)) (p.join self false).run s := by
  unfold join
  split
  · exact fun _ _ => trivial
  · refine (World.meets_ask_bind _ _ _).mpr fun t ht => ⟨trivial, fun a u ha => ?_⟩
    obtain rfl : t = s := (World.others_alone _).mp ht
    cases a with
    | error e =>
      intro v hv
      exact ⟨.error e, ha.1, (World.others_alone _).mp hv ▸ ha.2, fun _ h => by cases h⟩
    | ok status =>
      refine (World.meets_log_bind _ _ _).mpr ((World.meets_ofExcept _ _).mpr fun v hv => ?_)
      exact ⟨.ok status, ha.1, (World.others_alone _).mp hv ▸ ha.2,
        fun _ h => Family.reaps_of_outcome h⟩

def Family.Captured (s : Family) (r : Except Failure String) (t : Family) : Prop :=
  t = s ∨ ∃ pid a, pid ∉ s.children ∧ a ≠ .error .ECHILD ∧ t = (s.born pid).waited pid a ∧
    ∀ text, r = .ok text → reaps a = true

theorem Executable.conclude_family {u : Family} (plan : LaunchPlan) (process : ProcessHandle)
    {ending : Except Failure Int} (out err : Bytes)
    (h : (s.born process.pid).Joined process.pid ending u) (hpid : process.pid ∉ s.children) :
    World.family.Meets (.result s.Captured) (conclude plan process ending out err).run u := by
  obtain ⟨a, ha, rfl, hreaps⟩ := h
  have hchild := ha (Finset.mem_insert_self process.pid s.children)
  cases ending with
  | error f =>
    intro v hv
    obtain rfl := (World.others_alone _).mp hv
    exact .inr ⟨process.pid, a, hpid, hchild, rfl, fun _ h => by cases h⟩
  | ok code =>
    apply (conclude_makes plan process (.ok code) out err).family
    intro r
    exact .inr ⟨process.pid, a, hpid, hchild, rfl, fun _ _ => hreaps code rfl⟩

theorem Executable.capture_family (e : Executable) (self : Pid) (params : List Bytes)
    (env : Option Environment) (rounds : Nat) :
    World.family.Meets (.result s.Captured) (e.capture self params env rounds).run s := by
  apply (World.meets_action_bind _ _ _).mpr
  apply (Action.makes_ofExcept _).family
  intro r
  cases r with
  | error e => exact fun t ht => .inl ((World.others_alone _).mp ht)
  | ok plan =>
    apply (World.meets_action_bind _ _ _).mpr
    apply (startOnPipes_family plan).returning
    intro r t ht
    cases r with
    | error e => exact fun u hu => .inl ((World.others_alone _).mp hu ▸ ht)
    | ok started =>
      obtain ⟨process, parent⟩ := started
      obtain ⟨hpid, rfl⟩ := ht
      apply (World.meets_lift_bind _ _ _).mpr
      apply (parent.stdin.closeSafe_makes fun _ => trivial).family
      intro stdin
      apply (World.meets_lift_bind _ _ _).mpr
      apply (StreamEnds.drop_makes (fun _ => trivial) _).family_leaving
      apply (process.join_family self).returning
      intro ending t ht
      apply (World.meets_action_bind _ _ _).mpr
      apply (StreamEnds.drain_makes (fun _ => trivial) (fun _ _ => trivial) _ rounds).family
      intro r
      cases r with
      | error f =>
        obtain ⟨a, ha, rfl, hreaps⟩ := ht
        intro v hv
        obtain rfl := (World.others_alone _).mp hv
        exact .inr ⟨process.pid, a, hpid, ha (Finset.mem_insert_self _ _), rfl,
          fun _ h => by cases h⟩
      | ok streams => exact conclude_family plan process streams.1 streams.2 ht hpid

end Steps

theorem Family.waited_born_children {s : Family} {pid : Pid} (hpid : pid ∉ s.children)
    (a : Except Errno WaitStatus) :
    ((s.born pid).waited pid a).children =
      if reaps a then s.children else insert pid s.children := by
  simp only [waited, born]
  split
  · exact Finset.erase_insert hpid
  · rfl

/-- A child that was started has been waited for once, and is left exactly when that wait was not
told of its end. The result is a value only when it was. -/
def Action.ReapsIffTold {α : Type} (p : Action α) : Prop :=
  ∀ s r t, World.family.Returns p.run s r t → t = s ∨ ∃ pid a, pid ∉ s.children ∧
    t.started = s.started ++ [pid] ∧ t.waits = s.waits ++ [(pid, a)] ∧
    t.children = (if Family.reaps a then s.children else insert pid s.children) ∧
    ∀ value, r = .ok value → Family.reaps a = true

theorem Executable.capture_reapsIffTold (e : Executable) (self : Pid) (params : List Bytes)
    (env : Option Environment) (rounds : Nat) :
    (e.capture self params env rounds).ReapsIffTold := by
  intro s r t hreturns
  obtain rfl | ⟨pid, a, hpid, _, rfl, hvalue⟩ :=
    (e.capture_family self params env rounds).returns hreturns
  · exact .inl rfl
  · exact .inr ⟨pid, a, hpid, rfl, rfl, Family.waited_born_children hpid a, hvalue⟩

/-- Whatever the calls of a capture answer, its child is reaped unless the one wait for it is
interrupted or told of something else than its end. -/
theorem Executable.captures_reap_iff_told (rounds : Nat) :
    (∀ e self params env, (capture e self params env rounds).ReapsIffTold) ∧
      ∀ self command, (system self command rounds).ReapsIffTold :=
  ⟨fun e self params env => e.capture_reapsIffTold self params env rounds,
    fun self _ => shell.capture_reapsIffTold self _ none rounds⟩

/-- A wait that a signal handler interrupts is not made again: the capture fails and its child
is left. -/
theorem Executable.interrupted_capture_leaves_child :
    ∃ r t, World.family.Returns (shell.capture 1 [] none 1).run ⟨∅, [], []⟩ r t ∧
      t.waits = [(7, .error .EINTR)] ∧ t.children = {7} := by
  let task : ChildTask :=
    { plan := { arguments := ⟨[Bytes.ofString "/bin/sh"]⟩, environment := none
                commandLine := Bytes.ofString "/bin/sh" }
      stdio := .redirect 3 6 8, detached := false, mask := 0 }
  let answers : List Answered :=
    [⟨.makePipe, .ok (3, 4)⟩, ⟨.makePipe, .ok (5, 6)⟩, ⟨.makePipe, .ok (7, 8)⟩,
      ⟨.setMask .full, .ok 0⟩, ⟨.fork task, .ok 7⟩, ⟨.setMask 0, .ok .full⟩,
      ⟨.close 3, .ok ()⟩, ⟨.close 6, .ok ()⟩, ⟨.close 8, .ok ()⟩, ⟨.close 4, .ok ()⟩,
      ⟨.wait 7, .error .EINTR⟩, ⟨.read 5 4096, .ok []⟩, ⟨.read 7 4096, .ok []⟩,
      ⟨.close 5, .ok ()⟩, ⟨.close 7, .ok ()⟩]
  have hresult : ((shell.capture 1 [] none 1).run.follow answers).bind Program.result? =
      some (.error (.callFailed "waitpid" "on process /bin/sh pid: 7" .EINTR)) := by
    decide +kernel
  have hallowed : World.family.Allows ⟨∅, [], []⟩ answers
      ((Family.born ⟨∅, [], []⟩ 7).waited 7 (.error .EINTR)) := by
    iterate 4 refine .answer rfl ?_
    refine .answer ⟨by simp, rfl⟩ ?_
    iterate 5 refine .answer rfl ?_
    refine .answer ⟨fun _ => nofun, rfl⟩ ?_
    iterate 4 refine .answer rfl ?_
    exact .nil _
  exact ⟨_, _, hallowed.returns hresult, rfl, rfl⟩

end OwnedHandles
