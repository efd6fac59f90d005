import OwnedHandles.Proofs.Attempt
import OwnedHandles.Proofs.Capture
import OwnedHandles.Proofs.Marshalling

namespace OwnedHandles

def LaunchPlan.failureWrites (p : LaunchPlan) (errno : Errno) : List (OutputStream × Bytes) :=
  [p.failureNote, Bytes.ofString p.execCall, Bytes.ofString ": ", Bytes.ofString errno.wording,
    Bytes.ofString "\n"].map (Prod.mk .stderr)

section Child

variable {errno : Errno} {s : Table}

theorem ChildTask.resetDispositions_meets (t : ChildTask) {R : Unit → Solo → Prop} {s : Solo}
    (h : R () s) :
    (World.solo errno).Meets (.proceeding errno R) t.resetDispositions s := by
  refine World.solo_signals id fun _ => World.solo_signals id fun _ => ?_
  cases hdetached : t.detached with
  | true =>
    rw [if_pos rfl]
    exact World.solo_signals id fun _ => World.alone_done h
  | false =>
    rw [if_neg Bool.false_ne_true]
    exact World.alone_done h

theorem ChildTask.writeParts_meets (parts : List Bytes) (left : List (OutputStream × Bytes))
    (herr : s.WritesTo 2 OutputStream.stderr.pipe) :
    (World.solo errno).Meets (.proceeding errno fun _ u => u = ⟨s, left⟩) (writeParts parts)
      ⟨s, parts.map (Prod.mk .stderr) ++ left⟩ := by
  induction parts with
  | nil => exact World.alone_done rfl
  | cons part parts ih =>
    refine World.alone_call ⟨.ok part.length, ⟨s, parts.map (Prod.mk .stderr) ++ left⟩, rfl, rfl,
      .stderr, herr, rfl⟩ fun a u ha => ?_
    obtain ⟨table, later⟩ := u
    cases a with
    | error e => exact ha.1.elim
    | ok n =>
      obtain ⟨-, rfl, o, -, hleft⟩ := ha
      obtain rfl : _ = later := (List.cons.inj hleft).2
      exact ih

theorem ChildTask.report_performs (t : ChildTask)
    (herr : s.WritesTo 2 OutputStream.stderr.pipe) :
    ((t.report t.plan.execCall errno).bind fun _ =>
      Program.ask (.exit Limits.execFailureStatus)).Performs errno s
        (t.plan.failureWrites errno) := by
  refine (World.meets_bind _ _ _).mpr ((writeParts_meets _ [] herr).returning ?_)
  rintro _ u rfl
  exact World.alone_call ⟨rfl, rfl⟩ nofun

theorem ChildTask.main_performs {t : ChildTask} {stdin stdout stderr : Fd} {x y : TableEntry}
    {closeOnExec : Bool} (hstdio : t.stdio = .redirect stdin stdout stderr)
    (hin : s.entries stdin = some x) (hout : s.entries stdout = some y)
    (herr : s.entries stderr = some ⟨.pipe OutputStream.stderr.pipe .write, closeOnExec⟩)
    (hout0 : stdout ≠ 0) (herr0 : stderr ≠ 0) (herr1 : stderr ≠ 1) :
    t.main.Performs errno s (t.plan.failureWrites errno) := by
  rw [main_eq]
  refine (World.meets_bind _ _ _).mpr (t.resetDispositions_meets ?_)
  refine World.solo_signals id fun _ => ?_
  unfold become
  rw [hstdio]
  refine (World.meets_bind _ _ _).mpr (ChildStdio.wire_meets (World.solo_setsUp errno _) hin hout
    herr hout0 herr0 herr1 (fun t c hc => hc.proceeds) nofun ?_)
  refine World.alone_call ⟨errno, _, ⟨rfl, rfl⟩, rfl⟩ fun e u hu => ?_
  obtain ⟨table, left⟩ := u
  obtain ⟨⟨rfl, htable⟩, rfl⟩ := hu
  obtain rfl : table = _ := htable
  exact t.report_performs ⟨false, by simp [Table.installed]⟩

end Child

def Call.AnyTime : Call → Prop
  | .fork _ | .read .. => False
  | _ => True

def Contract.inOrder {α : Type} (errno : Errno) (writes : List (OutputStream × Bytes))
    (R : α → Exchange → Prop) : Contract Exchange α :=
  ⟨Call.InOrder errno writes, R, fun _ _ => True, fun _ => True⟩

section Order

open Contract (exchange inOrder ok)

variable {α β : Type} {child self : Pid} {capacity interruptions : Nat} {j : Job} {errno : Errno}
  {writes : List (OutputStream × Bytes)} {given : Fd → Option Bool} {s : Exchange}

theorem Call.AnyTime.inOrder {c : Call} (hc : c.AnyTime) : c.InOrder errno writes s := by
  cases c <;> first | exact hc.elim | trivial

theorem Exchange.reaped_of_answer {c : Call} {a : c.Answer} {t : Exchange}
    (ha : Call.exchanges child j s c a t) (hs : s.child = .reaped) : t.child = .reaped := by
  cases c with
  | makePipe =>
    cases a with
    | ok ends => exact ha.2 ▸ hs
    | error e => exact ha.elim
  | close fd => exact (show t = _ from ha) ▸ hs
  | setMask mask => exact ha.2 ▸ hs
  | fork task =>
    cases a with
    | ok pid => cases hs.symm.trans ha.2.1
    | error e => exact ha.elim
  | wait pid => exact ha.2.2 ▸ rfl
  | read fd count =>
    cases a with
    | ok chunk =>
      obtain ⟨k, b, -, ⟨-, -, later, -, rfl⟩ | ⟨-, -, -, rfl⟩⟩ := ha
      · exact hs
      · exact hs
    | error e =>
      obtain ⟨-, m, -, rfl⟩ := Exchange.interrupted_of_answer ha
      exact hs
  | _ => exact ha.elim

namespace Contract.inOrder

theorem anyTime {p : Program α} (hp : p.Makes Call.AnyTime) :
    (World.exchange child capacity j).Meets (inOrder errno writes fun _ _ => True) p s :=
  hp.meets_calls (fun _ _ hc => hc.inOrder) (fun _ _ => trivial) (fun _ _ => trivial)
    fun _ => trivial

theorem of_exchange {p : Program α} {P : α → Exchange → Prop}
    (h : (World.exchange child capacity j).Meets (exchange child capacity j P) p s)
    (hp : p.Makes Call.AnyTime) :
    (World.exchange child capacity j).Meets (inOrder errno writes P) p s := by
  have hany : (World.exchange child capacity j).Meets (inOrder errno writes fun _ _ => True) p s :=
    anyTime hp
  exact (h.withCalls hany).weaken (fun _ _ h => h.2) (fun _ _ h => h) (fun _ _ _ => trivial)
    fun _ _ => trivial

theorem bind {p : Action α} {f : α → Action β} {P : Except Failure α → Exchange → Prop}
    (hp : (World.exchange child capacity j).Meets (inOrder errno writes P) p.run s)
    (hf : ∀ a t, P (.ok a) t → (World.exchange child capacity j).Meets
      (inOrder errno writes fun _ _ => True) (f a).run t) :
    (World.exchange child capacity j).Meets (inOrder errno writes fun _ _ => True)
      (p >>= f).run s := by
  refine (World.meets_action_bind _ _ _).mpr (hp.returning fun r t ht => ?_)
  cases r with
  | ok a => exact hf a t ht
  | error e => exact anyTime trivial

theorem onLeave {p : Action α} {fin : Program Unit}
    (hp : (World.exchange child capacity j).Meets (inOrder errno writes fun _ _ => True) p.run s)
    (hfin : fin.Makes Call.AnyTime) :
    (World.exchange child capacity j).Meets (inOrder errno writes fun _ _ => True)
      (p.onLeave fin).run s := by
  refine (World.meets_leaving _ _ _ _).mpr (hp.weaken (fun _ _ h => h) (fun r t _ => ?_)
    (fun m t _ => anyTime (hfin.bind fun _ => trivial)) (fun _ h => h))
  cases r with
  | ok a => exact anyTime trivial
  | error e => exact anyTime (hfin.bind fun _ => trivial)

theorem of_reaped {p : Program α} (hp : p.Makes fun c => ∀ task, c ≠ .fork task)
    (hs : s.child = .reaped) :
    (World.exchange child capacity j).Meets (inOrder errno writes fun _ _ => True) p s := by
  -- no answer brings the child back, so pipes may be read from here on
  induction p generalizing s with
  | done a => exact fun _ _ => trivial
  | abort m => exact fun _ _ => trivial
  | unfinished => exact fun _ _ => trivial
  | note e p ih => exact ih hp hs
  | call c next ih =>
    intro t ht
    obtain rfl := Exchange.others_eq (Exchange.reaped_not_running hs) ht
    refine ⟨?_, fun a u ha => ih a (hp.2 a) (Exchange.reaped_of_answer ha hs)⟩
    cases c with
    | fork task => exact absurd rfl (hp.1 task)
    | read fd count => exact hs
    | _ => trivial

end Contract.inOrder

theorem ProcessHandle.join_inOrder (p : ProcessHandle) :
    (World.exchange child capacity j).Meets (inOrder errno writes fun _ t => t.child = .reaped)
      (p.join self false).run s := by
  unfold join
  split
  · exact fun _ _ => trivial
  apply (World.meets_ask_bind _ _ _).mpr
  intro t ht
  refine ⟨trivial, fun a u ha => ?_⟩
  obtain ⟨-, -, rfl⟩ := ha
  have hreaped {r : Except Failure Int} : (World.exchange child capacity j).Meets
      (inOrder errno writes fun _ t => t.child = .reaped) (.done r)
        { t with child := .reaped } := by
    intro v hv
    obtain rfl := Exchange.others_eq (Exchange.reaped_not_running rfl) hv
    rfl
  cases a with
  | error e => exact hreaped
  | ok status =>
    refine (World.meets_log_bind _ _ _).mpr ?_
    rw [Action.run_ofExcept]
    exact hreaped

theorem LaunchPlan.fork_inOrder (p : LaunchPlan) {n : Table.PipeNumbers} {table : Table}
    {ends : StreamEnds × StreamEnds} (hpiped : table.Piped given n ends.1 ends.2)
    (hs : s = { Exchange.start given interruptions with table }) :
    (World.exchange child capacity j).Meets
      (inOrder errno (p.failureWrites errno) fun _ _ => True)
      (p.fork (.redirect n.stdin n.stdout n.stderr) false).run s := by
  obtain ⟨hin, hout, herr, -, -⟩ := hpiped.entries
  have hnumbers : n.stdout ≠ 0 ∧ n.stderr ≠ 0 ∧ n.stderr ≠ 1 := by
    have hincreasing := hpiped.increasing
    omega
  have hunborn : s.child = .unborn := by rw [hs]; rfl
  apply inOrder.bind (inOrder.of_exchange (BlockedSignals.blockAll_exchange hunborn)
    (BlockedSignals.blockAll_makes fun _ => trivial))
  rintro b t ⟨_, -, rfl⟩
  apply (World.meets_ask_bind _ _ _).mpr
  intro u hu
  obtain rfl := Exchange.others_eq (Exchange.unborn_not_running hunborn) hu
  subst hs
  refine ⟨⟨rfl, ?_, n.stdin, n.stdout, n.stderr, true, true, rfl, hout, herr⟩, fun a v _ => ?_⟩
  · exact ChildTask.main_performs rfl hin hout herr hnumbers.1 hnumbers.2.1 hnumbers.2.2
  · cases a with
    | error e =>
      exact inOrder.anyTime (Action.makes_bind (Action.makes_lift (b.drop_makes fun _ => trivial))
        fun _ => trivial)
    | ok pid =>
      exact inOrder.anyTime (Action.makes_bind
        (Action.makes_lift (b.restoreLogged_makes fun _ => trivial)) fun _ => trivial)

theorem Executable.startOnPipes_inOrder (plan : LaunchPlan)
    (hbounded : (Table.before given).Bounded) :
    (World.exchange child capacity j).Meets
      (inOrder errno (plan.failureWrites errno) fun _ _ => True)
      (startOnPipes plan).run (.start given interruptions) := by
  apply inOrder.bind (inOrder.of_exchange (StreamEnds.openPipes_exchange hbounded)
    (StreamEnds.openPipes_makes trivial fun _ => trivial))
  rintro ends t ⟨_, ⟨⟩, n, table, hpiped, rfl⟩
  have hleave : (ends.2.drop.bind fun _ => ends.1.drop).Makes Call.AnyTime :=
    (ends.2.drop_makes fun _ => trivial).bind fun _ => ends.1.drop_makes fun _ => trivial
  dsimp only
  rw [hpiped.stdio_ok]
  refine inOrder.bind (P := fun r t => r = .ok (.redirect n.stdin n.stdout n.stderr) ∧
    t = { Exchange.start given interruptions with table }) ?_ ?_
  · intro t ht
    obtain rfl := Exchange.others_eq (Exchange.unborn_not_running rfl) ht
    exact ⟨rfl, rfl⟩
  rintro _ t ⟨⟨⟩, rfl⟩
  apply inOrder.bind (inOrder.onLeave (plan.fork_inOrder hpiped rfl) hleave)
  intro process t _
  exact inOrder.anyTime (Action.makes_bind
    (Action.makes_lift (ends.1.drop_makes fun _ => trivial)) fun _ => trivial)

theorem Executable.capture_inOrder (e : Executable) {params : List Bytes}
    {env : Option Environment} {plan : LaunchPlan}
    (hplan : LaunchPlan.make e.program params env = .ok plan)
    (hbounded : (Table.before given).Bounded) (rounds : Nat) :
    (World.exchange child capacity j).Meets
      (inOrder errno (plan.failureWrites errno) fun _ _ => True)
      (e.capture self params env rounds).run (.start given interruptions) := by
  refine inOrder.bind (P := fun r t => r = .ok plan ∧ t = .start given interruptions) ?_ ?_
  · unfold Executable.plan
    rw [hplan]
    intro t ht
    obtain rfl := Exchange.others_eq (Exchange.unborn_not_running rfl) ht
    exact ⟨rfl, rfl⟩
  rintro _ t ⟨⟨⟩, rfl⟩
  apply inOrder.bind (startOnPipes_inOrder plan hbounded)
  intro started t _
  obtain ⟨process, parent⟩ := started
  have hclose (fd : Fd) : Call.AnyTime (.close fd) := trivial
  apply inOrder.bind (inOrder.anyTime (Action.makes_lift (parent.stdin.closeSafe_makes hclose)))
  intro stdin t _
  have hjoin : (World.exchange child capacity j).Meets
      (inOrder errno (plan.failureWrites errno) fun _ t => t.child = .reaped)
      ((process.join self false).onAbort { parent with stdin }.drop).attempt t := by
    refine (World.meets_leaving _ _ _ _).mpr (process.join_inOrder.settled.weaken
      (fun _ _ h => h) (fun r u hu => hu) (fun m u _ => ?_) (fun _ h => h))
    exact (World.meets_bind _ _ _).mpr ((StreamEnds.drop_makes hclose _).meets_calls
      (fun _ _ hc => hc.inOrder) (fun _ _ _ _ => trivial) (fun _ _ => trivial) fun _ => trivial)
  -- whatever the wait says, the child is gone by now
  refine hjoin.lift_bind fun ending u hu => inOrder.of_reaped ?_ hu
  exact drain_conclude_makes (fun _ _ => nofun) (fun _ _ _ => nofun) _ rounds plan process ending

end Order

def Executable.failureReport (e : Executable) (params : List Bytes) (env : Option Environment)
    (errno : Errno) : Bytes :=
  Bytes.ofString "Can not execute \"" ++ e.commandLine params ++ Bytes.ofString "\": " ++
    Bytes.ofString (if env.isSome then "execve" else "execv") ++ Bytes.ofString ": " ++
    Bytes.ofString errno.wording ++ Bytes.ofString "\n"

def Executable.reported (e : Executable) (params : List Bytes) (env : Option Environment)
    (errno : Errno) : Except Failure String :=
  .error (.executionFailed (Text.decodeLossy (e.commandLine params)) Limits.execFailureStatus
    (Text.decodeLossy (e.failureReport params env errno)))

section Whole

open Contract (exchange inOrder)

variable {self child : Pid} {given : Fd → Option Bool} {capacity interruptions rounds : Nat}
  {errno : Errno} {params : List Bytes} {env : Option Environment} {plan : LaunchPlan}

theorem OutputStream.total_map (o stream : OutputStream) (parts : List Bytes) :
    o.total (parts.map (Prod.mk stream)) = if stream = o then parts.flatten else [] := by
  induction parts with
  | nil => simp
  | cons part parts ih =>
    rw [List.map_cons, total_cons, ih]
    by_cases h : stream = o <;> simp [h]

theorem LaunchPlan.IsFor.execCall_eq {program : Bytes} (h : plan.IsFor program params env) :
    plan.execCall = if env.isSome then "execve" else "execv" := by
  have hsome := congrArg Option.isSome h.environment_eq
  rw [Option.isSome_map, Option.isSome_map] at hsome
  rw [execCall, hsome]

namespace Executable

theorem failed_written (e : Executable) (h : plan.IsFor e.program params env) :
    (Job.failed (plan.failureWrites errno)).written .stderr = e.failureReport params env errno := by
  have hcommand : plan.commandLine = e.commandLine params := h.commandLine_eq
  rw [Job.written, Job.failed, LaunchPlan.failureWrites, OutputStream.total_map, if_pos rfl,
    LaunchPlan.failureNote, hcommand, h.execCall_eq]
  simp [failureReport]

theorem failed_fits (e : Executable) (h : plan.IsFor e.program params env) :
    (Job.failed (plan.failureWrites errno)).Fits capacity ↔
      (e.failureReport params env errno).length ≤ capacity := by
  rw [← e.failed_written h]
  constructor
  · exact fun hfits => hfits .stderr
  · intro hlength o
    cases o with
    | stdout => exact Nat.zero_le capacity
    | stderr => exact hlength

theorem failed_result (e : Executable) (h : plan.IsFor e.program params env) :
    (Job.failed (plan.failureWrites errno)).result plan.commandText child =
      e.reported params env errno := by
  have hcommand : plan.commandLine = e.commandLine params := h.commandLine_eq
  rw [reported, ← e.failed_written h, ← hcommand]
  rfl

theorem capture_attempt (e : Executable)
    (hplan : LaunchPlan.make e.program params env = .ok plan) (hself : child ≠ self)
    (hbounded : (Table.before given).Bounded)
    (hrounds : interruptions + (e.failureReport params env errno).length < rounds) :
    (World.attempt child capacity errno).Meets
      (((exchange child capacity (.failed (plan.failureWrites errno)) fun r _ =>
        (e.failureReport params env errno).length ≤ capacity ∧
          r = e.reported params env errno).withCalls
        (Call.InOrder errno (plan.failureWrites errno))).along (Attempt.Does errno))
      (e.capture self params env rounds).run (.start given interruptions) := by
  have hfor := LaunchPlan.isFor_of_make hplan
  have hwritten : ∀ o, interruptions +
      ((Job.failed (plan.failureWrites errno)).written o).length < rounds := by
    intro o
    -- both streams of the job fit into a pipe that takes the report and no more
    have hlength : _ ≤ (e.failureReport params env errno).length :=
      (e.failed_fits hfor).mpr (Nat.le_refl _) o
    omega
  have horder : (World.exchange child capacity (.failed (plan.failureWrites errno))).Meets
      (inOrder errno (plan.failureWrites errno) fun _ _ => True)
      (e.capture self params env rounds).run (.start given interruptions) :=
    e.capture_inOrder hplan hbounded rounds
  have hexchange := (e.capture_exchange hplan hself hbounded hwritten).withCalls horder
  rw [e.failed_fits hfor, e.failed_result hfor] at hexchange
  -- the calls are in order, so what is shown of a child with the job can be taken over
  have hrefines := World.attempt_refines child capacity errno (plan.failureWrites errno)
  exact hexchange.refine ⟨hrefines.moves, fun hdoes hc => hrefines.answers hdoes hc.2⟩ ⟨.unborn⟩

theorem capture_attempt_yields (e : Executable)
    (hplan : LaunchPlan.make e.program params env = .ok plan) (hself : child ≠ self)
    (hbounded : (Table.before given).Bounded)
    (hrounds : interruptions + (e.failureReport params env errno).length < rounds)
    (hfits : (e.failureReport params env errno).length ≤ capacity) :
    (World.attempt child capacity errno).Yields (e.capture self params env rounds).run
      (.start given interruptions) (e.reported params env errno) := by
  have hjob : (Job.failed (plan.failureWrites errno)).Fits capacity :=
    (e.failed_fits (LaunchPlan.isFor_of_make hplan)).mpr hfits
  refine (e.capture_attempt hplan hself hbounded hrounds).yields
    (Attempt.childStep_wellFounded child capacity errno) ?_ ?_ ?_ ?_
  · rintro s c ⟨t, hdoes, hgo, horder⟩
    exact hdoes.canGoOn horder (hgo hjob)
  · rintro r s ⟨t, -, -, rfl⟩
    rfl
  · rintro m s ⟨t, -, hbreaks⟩
    exact hbreaks
  · rintro s ⟨t, -, hgivesUp⟩
    exact hgivesUp

theorem capture_attempt_blocks (e : Executable)
    (hplan : LaunchPlan.make e.program params env = .ok plan) (hself : child ≠ self)
    (hbounded : (Table.before given).Bounded)
    (hrounds : interruptions + (e.failureReport params env errno).length < rounds)
    (hlong : capacity < (e.failureReport params env errno).length) (r : Except Failure String)
    (s : Attempt) :
    ¬(World.attempt child capacity errno).Returns (e.capture self params env rounds).run
      (.start given interruptions) r s := by
  intro hreturns
  obtain ⟨t, -, hfits, -⟩ := (e.capture_attempt hplan hself hbounded hrounds).returns hreturns
  exact Nat.not_le.mpr hlong hfits

/-- A child that can not become its program is always reported by a capture, whatever the order of
its steps and the parent's, exactly as long as the report fits into a pipe. -/
theorem failed_exec_reported (hself : child ≠ self) {bound : Fd}
    (hgiven : ∀ n, bound ≤ n → given n = none) (capacity : Nat) (errno : Errno) (e : Executable)
    (params : List Bytes) (env : Option Environment)
    (hplan : ∃ plan, LaunchPlan.make e.program params env = .ok plan)
    (hrounds : interruptions + (e.failureReport params env errno).length < rounds) :
    ((e.failureReport params env errno).length ≤ capacity →
      (World.attempt child capacity errno).Yields (e.capture self params env rounds).run
        (.start given interruptions) (e.reported params env errno)) ∧
    (capacity < (e.failureReport params env errno).length → ∀ r t,
      ¬(World.attempt child capacity errno).Returns (e.capture self params env rounds).run
        (.start given interruptions) r t) := by
  obtain ⟨plan, hplan⟩ := hplan
  exact ⟨e.capture_attempt_yields hplan hself (.before hgiven) hrounds,
    e.capture_attempt_blocks hplan hself (.before hgiven) hrounds⟩

end Executable

end Whole

/-- A program that is not there, and a pipe that takes the report on it. -/
theorem Executable.failed_exec_reported_missing :
    let e : Executable := ⟨⟨Bytes.ofString "/bin/none"⟩⟩
    (World.attempt 7 80 .ENOENT).Yields (e.capture 1 [[97]] none 90).run
      (.start (fun _ => none) 1) (.error (.executionFailed "/bin/none a" 1
        "Can not execute \"/bin/none a\": execv: No such file or directory\n")) := by
  intro e
  have hlength : (e.failureReport [[97]] none .ENOENT).length = 64 := by decide +kernel
  have hreported : e.reported [[97]] none .ENOENT = .error (.executionFailed "/bin/none a" 1
      "Can not execute \"/bin/none a\": execv: No such file or directory\n") := by
    decide +kernel
  rw [← hreported]
  exact (failed_exec_reported (by decide) (fun n (_ : 0 ≤ n) => rfl) 80 .ENOENT e [[97]] none
    (LaunchPlan.exists_make (by decide +kernel)) (by omega)).1 (by omega)

theorem Executable.failureReport_length (e : Executable) (p : Bytes) (env : Option Environment)
    (errno : Errno) : (e.failureReport [p] env errno).length =
      (e.failureReport [[]] env errno).length + p.length := by
  simp only [failureReport, commandLine, OwnedHandles.commandLine, List.foldl_cons,
    List.foldl_nil, List.length_append, List.length_cons, List.length_nil]
  omega

/-- A parameter can be too long for the report on it. -/
theorem Executable.failed_exec_unreported :
    let e : Executable := ⟨⟨Bytes.ofString "/bin/none"⟩⟩
    let long : Bytes := List.replicate 65536 97
    (∃ plan, LaunchPlan.make e.program [long] none = .ok plan) ∧
      (∀ r t, ¬(World.attempt 7 65536 .ENOENT).Returns (e.capture 1 [long] none 65700).run
        (.start (fun _ => none) 0) r t) ∧
      ¬(World.attempt 7 65536 .ENOENT).Yields (e.capture 1 [long] none 65700).run
        (.start (fun _ => none) 0) (e.reported [long] none .ENOENT) := by
  intro e long
  have hlong : 0 ∉ long := fun h => absurd (List.eq_of_mem_replicate h) (by decide)
  have hplan : ∃ plan, LaunchPlan.make e.program [long] none = .ok plan :=
    LaunchPlan.exists_make (List.forall_mem_cons.mpr
      ⟨by decide +kernel, List.forall_mem_singleton.mpr hlong⟩)
  have hempty : (e.failureReport [[]] none .ENOENT).length = 63 := by decide +kernel
  have hlength : (e.failureReport [long] none .ENOENT).length = 65599 := by
    rw [failureReport_length, hempty, List.length_replicate]
  have hblocks (r : Except Failure String) (t : Attempt) :
      ¬(World.attempt 7 65536 .ENOENT).Returns (e.capture 1 [long] none 65700).run
        (.start (fun _ => none) 0) r t := by
    obtain ⟨plan, hplan⟩ := hplan
    refine e.capture_attempt_blocks hplan (by decide) (.before fun n (_ : 0 ≤ n) => rfl) ?_ ?_ r t
    · rw [hlength]
      decide
    · rw [hlength]
      decide
  refine ⟨hplan, hblocks, fun h => ?_⟩
  obtain ⟨t, hreturns⟩ := h.completes _ .refl
  exact hblocks _ t hreturns

end OwnedHandles
