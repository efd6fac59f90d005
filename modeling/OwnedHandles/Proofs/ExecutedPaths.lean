import OwnedHandles.Proofs.Encoding
import OwnedHandles.Proofs.Launches
import OwnedHandles.Proofs.Marshalling

namespace OwnedHandles

namespace Program

variable {α β : Type} {P Q : Call → Prop}

def MayMake (P : Call → Prop) : Program α → Prop
  | .done _ | .abort _ | .unfinished => False
  | .note _ p => p.MayMake P
  | .call c next => P c ∨ ∃ a, (next a).MayMake P

def MayGive (b : α) : Program α → Prop
  | .done a => a = b
  | .abort _ | .unfinished => False
  | .note _ p => p.MayGive b
  | .call _ next => ∃ a, (next a).MayGive b

theorem Makes.of_mayMake {p : Program α} (hp : p.Makes Q) (h : p.MayMake P) : ∃ c, P c ∧ Q c := by
  induction p with
  | done a => exact h.elim
  | abort m => exact h.elim
  | unfinished => exact h.elim
  | note e p ih => exact ih hp h
  | call c next ih =>
    obtain hc | ⟨a, ha⟩ := h
    · exact ⟨c, hc, hp.1⟩
    · exact ih a (hp.2 a) ha

@[simp] theorem mayMake_bind (p : Program α) (f : α → Program β) :
    (p.bind f).MayMake P ↔ p.MayMake P ∨ ∃ a, p.MayGive a ∧ (f a).MayMake P := by
  induction p with
  | done a => simp [MayMake, MayGive]
  | abort m => simp [MayMake, MayGive]
  | unfinished => simp [MayMake, MayGive]
  | note e p ih => exact ih
  | call c next ih =>
    simp only [Program.bind, MayMake, MayGive, ih, or_assoc, exists_or]
    grind

theorem MayGive.bind {p : Program α} {f : α → Program β} {a : α} {b : β} (hp : p.MayGive a)
    (hf : (f a).MayGive b) : (p.bind f).MayGive b := by
  induction p with
  | done a' => exact hp ▸ hf
  | abort m => exact hp.elim
  | unfinished => exact hp.elim
  | note e p ih => exact ih hp
  | call c next ih => exact hp.imp fun x hx => ih x hx

theorem MayMake.leaving {failed : α → Bool} {fin : Program Unit} {p : Program α}
    (h : p.MayMake P) : (leaving failed fin p).MayMake P := by
  induction p with
  | done a => exact h.elim
  | abort m => exact h.elim
  | unfinished => exact h.elim
  | note e p ih => exact ih h
  | call c next ih => exact h.imp_right fun ⟨a, ha⟩ => ⟨a, ih a ha⟩

theorem MayGive.leaving {failed : α → Bool} {fin : Program Unit} {p : Program α} {a : α}
    (h : p.MayGive a) (ha : failed a = false) : (leaving failed fin p).MayGive a := by
  induction p with
  | done b =>
    obtain rfl : b = a := h
    simp [Program.leaving, ha, MayGive]
  | abort m => exact h.elim
  | unfinished => exact h.elim
  | note e p ih => exact ih h
  | call c next ih => exact h.imp fun x hx => ih x hx

end Program

namespace Action

variable {α β : Type} {P : Call → Prop} {p : Action α} {f : α → Action β} {a : α}

theorem mayMake_bind_left (h : p.run.MayMake P) : (p >>= f).run.MayMake P := by
  rw [run_bind, Program.mayMake_bind]
  exact .inl h

theorem mayMake_bind_right (hp : p.run.MayGive (.ok a)) (hf : (f a).run.MayMake P) :
    (p >>= f).run.MayMake P := by
  rw [run_bind, Program.mayMake_bind]
  exact .inr ⟨_, hp, hf⟩

theorem mayGive_onLeave {fin : Program Unit} (h : p.run.MayGive (.ok a)) :
    (p.onLeave fin).run.MayGive (.ok a) :=
  Program.MayGive.leaving h rfl

end Action

def Call.Executes (path : Bytes) : Call → Prop
  | .exec arguments _ => arguments.strings.head? = some path
  | _ => False

def Call.Launches (path : Bytes) : Call → Prop
  | .fork task => task.main.MayMake (Call.Executes path)
  | c => c.Executes path

theorem Call.LaunchesNothing.executes {c : Call} (hc : c.LaunchesNothing) {path : Bytes} :
    ¬c.Executes path := by
  cases c <;> first | exact hc.elim | exact id

theorem Call.LaunchesNothing.launches {c : Call} (hc : c.LaunchesNothing) {path : Bytes} :
    ¬c.Launches path := by
  cases c <;> first | exact hc.elim | exact id

def Action.MayExecute {α : Type} (p : Action α) (path : Bytes) : Prop :=
  p.run.MayMake (Call.Launches path)

namespace ChildTask

variable {path : Bytes} {t : ChildTask}

theorem install_mayGive (pairs : List (Fd × Fd)) :
    (ChildStdio.install pairs).MayGive (.ok ()) := by
  induction pairs with
  | nil => rfl
  | cons pair pairs ih =>
    obtain ⟨fd, target⟩ := pair
    unfold ChildStdio.install
    split
    · exact ⟨.ok (), ih⟩
    · exact ⟨.ok (), ih⟩

theorem closeAbove_mayGive (limit : Fd) (fds : List Fd) :
    (ChildStdio.closeAbove limit fds).MayGive () := by
  induction fds with
  | nil => rfl
  | cons fd fds ih =>
    unfold ChildStdio.closeAbove
    split
    · exact ⟨.ok (), ih⟩
    · exact ih

theorem wire_mayGive (stdio : ChildStdio) : stdio.wire.MayGive (.ok ()) := by
  cases stdio with
  | inherit => rfl
  | redirect stdin stdout stderr =>
    exact (install_mayGive _).bind ((closeAbove_mayGive 2 _).bind rfl)

theorem resetDispositions_mayGive (t : ChildTask) : t.resetDispositions.MayGive () := by
  refine ⟨.ok (), .ok (), ?_⟩
  split
  · exact ⟨.ok (), rfl⟩
  · rfl

theorem main_mayMake_iff :
    t.main.MayMake (Call.Executes path) ↔ t.plan.arguments.strings.head? = some path := by
  constructor
  · intro h
    -- no call of the child but this one executes anything
    have hmakes : t.main.Makes fun c =>
        c.Executes path → t.plan.arguments.strings.head? = some path :=
      main_makes (fun c hc _ hpath => (hc.executes hpath).elim) fun hpath => hpath
    obtain ⟨c, hc, himp⟩ := hmakes.of_mayMake h
    exact himp hc
  · intro h
    refine (Program.mayMake_bind _ _).mpr (.inr ⟨(), t.resetDispositions_mayGive, ?_⟩)
    refine .inr ⟨.ok .full, ?_⟩
    change (t.stdio.wire.bind _).MayMake _
    exact (Program.mayMake_bind _ _).mpr (.inr ⟨.ok (), wire_mayGive t.stdio, .inl h⟩)

end ChildTask

section Forks

variable {P : Call → Prop}

theorem LaunchPlan.fork_mayMake (p : LaunchPlan) (stdio : ChildStdio) (detached : Bool)
    (h : ∀ t, t.plan = p → P (.fork t)) : (p.fork stdio detached).run.MayMake P := by
  cases detached with
  | false => exact .inr ⟨.ok .full, .inl (h _ rfl)⟩
  | true => exact .inr ⟨.ok .full, .inr ⟨.ok (), .inl (h _ rfl)⟩⟩

theorem Executable.planned_mayMake {α : Type} {e : Executable} {params : List Bytes}
    {env : Option Environment} {p : LaunchPlan} {f : LaunchPlan → Action α}
    (hplan : LaunchPlan.make e.program params env = .ok p) (hf : (f p).run.MayMake P) :
    (e.plan params env >>= f).run.MayMake P := by
  unfold plan
  rw [hplan]
  exact hf

theorem StreamEnds.openPipes_mayGive : ∃ ends : StreamEnds × StreamEnds,
    (∃ stdio, ends.1.stdio = .ok stdio) ∧ openPipes.run.MayGive (.ok ends) :=
  ⟨_, ⟨_, rfl⟩, .ok (3, 4), .ok (5, 6), .ok (7, 8), rfl⟩

theorem Descriptor.openFile_mayGive (file : File) (flags : OpenFlags) (perm : Mode) (fd : Fd) :
    (openFile file flags perm).run.MayGive (.ok (owning fd file.name)) := by
  exact ⟨some .regular, .ok fd, rfl⟩

theorem Launch.action_mayMake (l : Launch) {p : LaunchPlan} (hplan : l.plan = .ok p)
    (h : ∀ t, t.plan = p → P (.fork t)) : l.action.run.MayMake P := by
  cases l with
  | start e params env =>
    apply Action.mayMake_bind_left
    exact Executable.planned_mayMake hplan (p.fork_mayMake _ _ h)
  | startAndForget e params =>
    apply Action.mayMake_bind_left
    exact Executable.planned_mayMake hplan (p.fork_mayMake _ _ h)
  | capture e self params env rounds =>
    obtain ⟨ends, ⟨stdio, hstdio⟩, hends⟩ := StreamEnds.openPipes_mayGive
    apply Action.mayMake_bind_left
    apply Executable.planned_mayMake hplan
    apply Action.mayMake_bind_left
    refine Action.mayMake_bind_right hends (Action.mayMake_bind_right
      (Action.mayGive_onLeave (a := stdio) ?_) ?_)
    · rw [hstdio]
      rfl
    · apply Action.mayMake_bind_left
      exact (p.fork_mayMake _ _ h).leaving
  | redirect e params env input output error perm =>
    apply Action.mayMake_bind_left
    apply Executable.planned_mayMake hplan
    have hopen (file : File) (flags : OpenFlags) (fd : Fd) (fin : Program Unit) :
        ((Descriptor.openFile file flags perm).onLeave fin).run.MayGive
          (.ok (.owning fd file.name)) :=
      Action.mayGive_onLeave (Descriptor.openFile_mayGive file flags perm fd)
    refine Action.mayMake_bind_right (Descriptor.openFile_mayGive input _ perm 3) ?_
    refine Action.mayMake_bind_right (hopen output _ 4 _) ?_
    refine Action.mayMake_bind_right (hopen error _ 5 _) ?_
    refine Action.mayMake_bind_right (Action.mayGive_onLeave (a := .redirect 3 4 5) ?_) ?_
    · rfl
    apply Action.mayMake_bind_left
    exact (p.fork_mayMake _ _ h).leaving

end Forks

/-- What the action may execute is this path, and it may do so if its launch can be planned. -/
def Action.ExecutesJust {α : Type} (p : Action α) (plan : Except Failure LaunchPlan)
    (path : Bytes) : Prop :=
  ∀ path', p.MayExecute path' ↔ plan.isOk = true ∧ path' = path

def Call.Names (path : Bytes) : Call → Prop
  | .probe p | .openFile p _ _ | .makeFifo p _ | .unlink p => p = path
  | _ => True

section Paths

variable {path : Bytes}

theorem LaunchPlan.IsFor.head_eq {plan : LaunchPlan} {program : Bytes} {params : List Bytes}
    {env : Option Environment} (h : plan.IsFor program params env) :
    plan.arguments.strings.head? = some path ↔ path = program := by
  rw [h.strings_eq, List.head?_cons, Option.some.injEq]
  exact eq_comm

theorem Launch.executes_program (l : Launch) :
    l.action.ExecutesJust l.plan l.executable.program := by
  intro path
  constructor
  · intro h
    have hmakes : l.action.run.Makes fun c => c.Launches path →
        l.plan.isOk = true ∧ path = l.executable.program := by
      have hother (c : Call) (hc : c.LaunchesNothing) (hpath : c.Launches path) :
          l.plan.isOk = true ∧ path = l.executable.program := (hc.launches hpath).elim
      refine (Program.compositional_makes fun c hc => hother c hc.launchesNothing).launch l
        fun plan stdio hplan => LaunchPlan.fork_makes (fun m => hother (.setMask m) trivial)
          (fun _ => hother (.setDisposition _ _) trivial) fun t ht _ h => ?_
      have hfor : plan.IsFor _ _ _ := LaunchPlan.isFor_of_make hplan
      refine ⟨by rw [hplan]; rfl, hfor.head_eq.mp ?_⟩
      rw [← ht]
      exact ChildTask.main_mayMake_iff.mp h
    obtain ⟨c, hc, himp⟩ := hmakes.of_mayMake h
    exact himp hc
  · rintro ⟨hok, rfl⟩
    cases hplan : l.plan with
    | error e => simp [hplan, Except.isOk, Except.toBool] at hok
    | ok plan =>
      have hfor : plan.IsFor _ _ _ := LaunchPlan.isFor_of_make hplan
      apply l.action_mayMake hplan
      rintro t rfl
      exact ChildTask.main_mayMake_iff.mpr (hfor.head_eq.mpr rfl)

theorem Executable.exec_executes_program (e : Executable) (params : List Bytes)
    (env : Option Environment) :
    (e.exec params env).ExecutesJust (LaunchPlan.make e.program params env) e.program := by
  intro path
  unfold Action.MayExecute exec plan
  cases hplan : LaunchPlan.make e.program params env with
  | error f => exact ⟨False.elim, fun h => nomatch h.1⟩
  | ok plan =>
    have hfor := LaunchPlan.isFor_of_make hplan
    constructor
    · rintro (h | ⟨_, h⟩)
      · exact ⟨rfl, hfor.head_eq.mp h⟩
      · exact h.elim
    · rintro ⟨-, rfl⟩
      exact .inl (hfor.head_eq.mpr rfl)

theorem Action.ExecutesJust.file_iff {α : Type} {p : Action α} {plan : Except Failure LaunchPlan}
    {e : Executable} (h : p.ExecutesJust plan e.program) :
    p.ExecutesJust plan e.file.path ↔ (plan.isOk = true → Text.WellFormed e.file.path) := by
  have hname : e.program = e.file.path ↔ Text.WellFormed e.file.path :=
    Text.ofString_decodeLossy_iff
  constructor
  · intro hfile hok
    exact hname.mp ((hfile e.program).mp ((h e.program).mpr ⟨hok, rfl⟩)).2
  · intro hwell path
    rw [h path]
    exact and_congr_right fun hok => by rw [hname.mpr (hwell hok)]

theorem Executable.program_eq_iff {e f : Executable} : e.program = f.program ↔ e.name = f.name := by
  refine ⟨fun h => ?_, fun h => congrArg Bytes.ofString h⟩
  simpa [program] using congrArg Text.decodeLossy h

theorem Launch.common_path_iff (l l' : Launch) :
    (∃ path, l.action.MayExecute path ∧ l'.action.MayExecute path) ↔
      l.plan.isOk = true ∧ l'.plan.isOk = true ∧ l.executable.name = l'.executable.name := by
  simp only [l.executes_program _, l'.executes_program _, ← Executable.program_eq_iff]
  constructor
  · rintro ⟨_, ⟨hok, rfl⟩, hok', heq⟩
    exact ⟨hok, hok', heq⟩
  · rintro ⟨hok, hok', heq⟩
    exact ⟨_, ⟨hok, rfl⟩, hok', heq⟩

end Paths

/-- Whatever way an executable is run, what is executed is its encoded name. This is the path of
its file, which probing and opening the file take, exactly if the path is the bytes of a text; and
launches of two files execute the same path exactly if the files have the same name. -/
theorem Executable.runs_execute_name (l l' : Launch) (e : Executable) (params : List Bytes)
    (env : Option Environment) (f : File) (flags : OpenFlags) (perm : Mode) :
    (l.action.ExecutesJust l.plan l.executable.program ∧
      (l.action.ExecutesJust l.plan l.executable.file.path ↔
        (l.plan.isOk = true → Text.WellFormed l.executable.file.path))) ∧
    ((e.exec params env).ExecutesJust (LaunchPlan.make e.program params env) e.program ∧
      ((e.exec params env).ExecutesJust (LaunchPlan.make e.program params env) e.file.path ↔
        ((LaunchPlan.make e.program params env).isOk = true → Text.WellFormed e.file.path))) ∧
    ((Descriptor.openFile f flags perm).run.Makes (Call.Names f.path) ∧
      f.leadsSomewhere.Makes (Call.Names f.path)) ∧
    ((∃ path, l.action.MayExecute path ∧ l'.action.MayExecute path) ↔
      l.plan.isOk = true ∧ l'.plan.isOk = true ∧ l.executable.name = l'.executable.name) := by
  have hexec := e.exec_executes_program params env
  refine ⟨⟨l.executes_program, l.executes_program.file_iff⟩, ⟨hexec, hexec.file_iff⟩, ⟨?_, ?_⟩,
    l.common_path_iff l'⟩
  · exact Descriptor.openFile_makes rfl rfl (fun _ => trivial) fun _ => trivial
  · exact ⟨rfl, fun _ => trivial⟩

/-- Two files whose paths are not the bytes of a text: each is launched as the replacement
character, which is the path of neither. -/
theorem Executable.runs_execute_replacement :
    let l : Launch := .start ⟨⟨[0xFF]⟩⟩ [] none
    let l' : Launch := .start ⟨⟨[0xFE]⟩⟩ [] none
    (l.action.MayExecute [0xEF, 0xBF, 0xBD] ∧ ¬l.action.MayExecute l.executable.file.path) ∧
      l'.action.MayExecute [0xEF, 0xBF, 0xBD] ∧ ¬l'.action.MayExecute l'.executable.file.path := by
  intro l l'
  have hprogram : l.executable.program = [0xEF, 0xBF, 0xBD] ∧
      l'.executable.program = [0xEF, 0xBF, 0xBD] := by decide +kernel
  have hplan : l.plan.isOk = true ∧ l'.plan.isOk = true := by decide +kernel
  refine ⟨⟨?_, fun h => ?_⟩, ?_, fun h => ?_⟩
  · exact (l.executes_program _).mpr ⟨hplan.1, hprogram.1.symm⟩
  · have hpath := ((l.executes_program _).mp h).2.trans hprogram.1
    exact absurd hpath (by decide)
  · exact (l'.executes_program _).mpr ⟨hplan.2, hprogram.2.symm⟩
  · have hpath := ((l'.executes_program _).mp h).2.trans hprogram.2
    exact absurd hpath (by decide)

end OwnedHandles
