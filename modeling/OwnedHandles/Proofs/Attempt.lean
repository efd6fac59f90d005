import OwnedHandles.Proofs.Exchange

/-!
A parent and a child that can not become its program. The child runs its own program here, one call
after the other and between any two calls of the parent; its writes go on as far as there is room.
A child whose program, run alone, performs some writes and exits does the job of these writes.
-/

namespace OwnedHandles

/-- What answers a child that puts itself in order and then fails to become its program. Nobody
else can see any of this. -/
def Call.prepares (errno : Errno) (s : Table) : (c : Call) → c.Answer → Table → Prop
  | .setMask _, .ok _, t => t = s
  | .setDisposition .., .ok _, t => t = s
  | .duplicate fd target, .ok a, t => (Call.duplicate fd target).rewires s (.ok a) t
  | .setCloseOnExec fd on, .ok a, t => (Call.setCloseOnExec fd on).rewires s (.ok a) t
  | .close fd, a, t => (Call.close fd).rewires s a t
  | .exec .., e, t => e = errno ∧ t = s
  | _, _, _ => False

def Table.WritesTo (s : Table) (fd : Fd) (k : Nat) : Prop :=
  ∃ closeOnExec, s.entries fd = some ⟨.pipe k .write, closeOnExec⟩

theorem Table.WritesTo.inj {s : Table} {fd : Fd} {k l : Nat} (h : s.WritesTo fd k)
    (h' : s.WritesTo fd l) : k = l := by
  obtain ⟨b, hb⟩ := h
  obtain ⟨b', hb'⟩ := h'
  have heq := hb.symm.trans hb'
  simp only [Option.some.injEq, TableEntry.mk.injEq, Origin.pipe.injEq] at heq
  exact heq.1.1

section Alone

structure Solo where
  table : Table
  left : List (OutputStream × Bytes)

def Call.answersSolo (errno : Errno) (s : Solo) : (c : Call) → c.Answer → Solo → Prop
  | .write fd bs, .ok n, t => n = bs.length ∧ t.table = s.table ∧
      ∃ o : OutputStream, s.table.WritesTo fd o.pipe ∧ s.left = (o, bs) :: t.left
  | c, a, t => c.prepares errno s.table a t.table ∧ t.left = s.left

def World.solo (errno : Errno) : World Solo := World.alone (Call.answersSolo errno)

def Call.Proceeds (errno : Errno) (s : Solo) : Call → Prop
  | .exit status => status = Limits.execFailureStatus ∧ s.left = []
  | c => ∃ a t, c.answersSolo errno s a t

def Contract.proceeding (errno : Errno) {α : Type} (R : α → Solo → Prop) : Contract Solo α :=
  ⟨Call.Proceeds errno, R, fun _ _ => False, fun _ => False⟩

def Program.Performs (errno : Errno) (p : Program Empty) (s : Table)
    (writes : List (OutputStream × Bytes)) : Prop :=
  (World.solo errno).Meets (.proceeding errno fun _ _ => False) p ⟨s, writes⟩

variable {α : Type} {errno : Errno} {R : α → Solo → Prop} {s : Solo}

theorem World.solo_setsUp (errno : Errno) (left : List (OutputStream × Bytes)) :
    (World.solo errno).SetsUp (fun s => ⟨s, left⟩) False where
  others h := (World.others_alone _).mp h
  duplicate {s u fd target a} h := by
    obtain ⟨h, rfl⟩ := h
    cases a with
    | ok _ => exact ⟨nofun, u.table, rfl, h⟩
    | error e => exact h.elim
  setCloseOnExec {s u fd value a} h := by
    obtain ⟨h, rfl⟩ := h
    cases a with
    | ok _ => exact ⟨nofun, u.table, rfl, h⟩
    | error e => exact h.elim
  close {s u fd a} h := by
    obtain ⟨table, left⟩ := u
    obtain ⟨h, rfl⟩ := h
    obtain rfl : table = s.remove fd := h
    rfl

theorem World.solo_signals {c : Call} {next : c.Answer → Program α} (hc : ¬c.KeepsSignals)
    (hnext : ∀ a, (World.solo errno).Meets (.proceeding errno R) (next a) s) :
    (World.solo errno).Meets (.proceeding errno R) (.call c next) s := by
  have hanswers : c.Proceeds errno s ∧ ∀ a t, c.answersSolo errno s a t → t = s := by
    cases c with
    | setMask mask =>
      refine ⟨⟨.ok mask, s, rfl, rfl⟩, fun a t ha => ?_⟩
      cases a with
      | error e => exact ha.1.elim
      | ok _ => exact congr (congrArg Solo.mk ha.1) ha.2
    | setDisposition signal d =>
      refine ⟨⟨.ok (), s, rfl, rfl⟩, fun a t ha => ?_⟩
      cases a with
      | error e => exact ha.1.elim
      | ok _ => exact congr (congrArg Solo.mk ha.1) ha.2
    | _ => exact absurd trivial hc
  refine alone_call hanswers.1 fun a t ha => ?_
  obtain rfl := hanswers.2 a t ha
  exact hnext a

theorem Call.SetsUp.proceeds {c : Call} {s : Table} {left : List (OutputStream × Bytes)}
    (h : c.SetsUp s) : c.Proceeds errno ⟨s, left⟩ := by
  cases c with
  | duplicate fd target =>
    obtain ⟨e, he⟩ := h
    exact ⟨.ok (), ⟨_, left⟩, ⟨e, he, rfl⟩, rfl⟩
  | setCloseOnExec fd value =>
    obtain ⟨e, he⟩ := h
    exact ⟨.ok (), ⟨_, left⟩, ⟨e, he, rfl⟩, rfl⟩
  | close fd => exact ⟨.ok (), ⟨s.remove fd, left⟩, rfl, rfl⟩
  | _ => exact h.elim

end Alone

inductive Program.PartOf {α : Type} : Program α → Program α → Prop
  | note {e : Event} {p : Program α} : PartOf p (.note e p)
  | call {c : Call} {next : c.Answer → Program α} (a : c.Answer) : PartOf (next a) (.call c next)

theorem Program.partOf_wellFounded {α : Type} : WellFounded (@PartOf α) := by
  refine ⟨fun p => ?_⟩
  induction p with
  | done a => exact ⟨_, nofun⟩
  | abort m => exact ⟨_, nofun⟩
  | unfinished => exact ⟨_, nofun⟩
  | note e p ih =>
    refine ⟨_, fun q hq => ?_⟩
    cases hq
    exact ih
  | call c next ih =>
    refine ⟨_, fun q hq => ?_⟩
    cases hq with
    | call a => exact ih a

inductive AttemptLife
  | unborn
  | running (p : Program Empty) (table : Table)
  | writing (k : Nat) (left : Bytes) (p : Program Empty) (table : Table)
  | ended (told : Except Errno WaitStatus)
  | reaped

def AttemptLife.table? : AttemptLife → Option Table
  | running _ t | writing _ _ _ t => some t
  | _ => none

structure Attempt where
  table : Table
  queue : Nat → Bytes
  child : AttemptLife
  interruptions : Nat

namespace Attempt

def start (given : Fd → Option Bool) (interruptions : Nat) : Attempt :=
  ⟨.before given, fun _ => [], .unborn, interruptions⟩

def setQueue (s : Attempt) (k : Nat) (bs : Bytes) : Attempt :=
  { s with queue := fun n => if n = k then bs else s.queue n }

def HasWriter (s : Attempt) (k : Nat) : Prop :=
  s.table.Has k .write ∨ ∃ t, s.child.table? = some t ∧ t.Has k .write

/-- A step of the child. It is stuck with a write as long as there is no room, and a write to a
pipe that nobody reads from kills it. -/
inductive ChildStep (child : Pid) (capacity : Nat) (errno : Errno) : Attempt → Attempt → Prop
  | note {s : Attempt} {e : Event} {p : Program Empty} {t : Table} :
      s.child = .running (.note e p) t →
      ChildStep child capacity errno s { s with child := .running p t }
  | prepare {s : Attempt} {c : Call} {next : c.Answer → Program Empty} {t u : Table}
      {a : c.Answer} :
      s.child = .running (.call c next) t → c.prepares errno t a u →
      ChildStep child capacity errno s { s with child := .running (next a) u }
  | begin {s : Attempt} {fd : Fd} {bs : Bytes} {next : Except Errno Nat → Program Empty}
      {t : Table} {k : Nat} :
      s.child = .running (.call (.write fd bs) next) t → t.WritesTo fd k →
      ChildStep child capacity errno s
        { s with child := .writing k bs (next (.ok bs.length)) t }
  | write {s : Attempt} {k : Nat} {now later : Bytes} {p : Program Empty} {t : Table} :
      s.child = .writing k (now ++ later) p t → now ≠ [] → s.table.Has k .read →
      (s.queue k).length + now.length ≤ capacity →
      ChildStep child capacity errno s
        { s.setQueue k (s.queue k ++ now) with child := .writing k later p t }
  | broken {s : Attempt} {k : Nat} {bs : Bytes} {p : Program Empty} {t : Table} :
      s.child = .writing k bs p t → bs ≠ [] → ¬s.table.Has k .read →
      ChildStep child capacity errno s
        { s with child := .ended (.ok (.signaled child .SIGPIPE false)) }
  | written {s : Attempt} {k : Nat} {p : Program Empty} {t : Table} :
      s.child = .writing k [] p t →
      ChildStep child capacity errno s { s with child := .running p t }
  | exit {s : Attempt} {status : Nat} {next : Empty → Program Empty} {t : Table} :
      s.child = .running (.call (.exit status) next) t →
      ChildStep child capacity errno s { s with child := .ended (.ok (.exited child status)) }

end Attempt

def Call.attempts (child : Pid) (s : Attempt) : (c : Call) → c.Answer → Attempt → Prop
  | .makePipe, .ok (r, w), t => s.table.AreLowest r w ∧ t = { s with table := s.table.addPipe r w }
  | .close fd, _, t => t = { s with table := s.table.remove fd }
  | .setMask _, a, t => (s.child = .unborn → a.isOk = true) ∧ t = s
  | .fork task, .ok pid, t => pid = child ∧ s.child = .unborn ∧
      t = { s with child := .running task.main s.table }
  | .wait pid, a, t => pid = child ∧ s.child = .ended a ∧ t = { s with child := .reaped }
  | .read fd count, .ok chunk, t => ∃ k b, s.table.entries fd = some ⟨.pipe k .read, b⟩ ∧
      ((chunk ≠ [] ∧ chunk.length ≤ count ∧ ∃ later, s.queue k = chunk ++ later ∧
          t = s.setQueue k later) ∨
        (chunk = [] ∧ s.queue k = [] ∧ ¬s.HasWriter k ∧ t = s))
  | .read _ _, .error .EINTR, t => ∃ m, s.interruptions = m + 1 ∧ t = { s with interruptions := m }
  | _, _, _ => False

def World.attempt (child : Pid) (capacity : Nat) (errno : Errno) : World Attempt :=
  ⟨Call.attempts child, Attempt.ChildStep child capacity errno⟩

namespace Attempt

variable {child : Pid} {capacity : Nat} {errno : Errno} {s t : Attempt}

theorem ChildStep.of_running {p : Program Empty} {t : Table} {u : Attempt}
    (hs : s.child = .running p t) (h : ChildStep child capacity errno s u) :
    (∃ q, q.PartOf p ∧ ∃ t', u.child = .running q t' ∨ ∃ k bs, u.child = .writing k bs q t') ∨
      ∃ a, u.child = .ended a := by
  cases h with
  | note h =>
    cases hs.symm.trans h
    exact .inl ⟨_, .note, _, .inl rfl⟩
  | prepare h =>
    cases hs.symm.trans h
    exact .inl ⟨_, .call _, _, .inl rfl⟩
  | begin h =>
    cases hs.symm.trans h
    exact .inl ⟨_, .call (c := .write _ _) _, _, .inr ⟨_, _, rfl⟩⟩
  | exit h => exact .inr ⟨_, rfl⟩
  | write h => cases hs.symm.trans h
  | broken h => cases hs.symm.trans h
  | written h => cases hs.symm.trans h

theorem ChildStep.of_writing {k : Nat} {bs : Bytes} {p : Program Empty} {t : Table} {u : Attempt}
    (hs : s.child = .writing k bs p t) (h : ChildStep child capacity errno s u) :
    (∃ later, later.length < bs.length ∧ u.child = .writing k later p t) ∨
      u.child = .running p t ∨ ∃ a, u.child = .ended a := by
  cases h with
  | write h hnow =>
    cases hs.symm.trans h
    refine .inl ⟨_, ?_, rfl⟩
    simpa using List.length_pos_iff.mpr hnow
  | broken h => exact .inr (.inr ⟨_, rfl⟩)
  | written h =>
    cases hs.symm.trans h
    exact .inr (.inl rfl)
  | note h => cases hs.symm.trans h
  | prepare h => cases hs.symm.trans h
  | begin h => cases hs.symm.trans h
  | exit h => cases hs.symm.trans h

theorem ChildStep.table_isSome {u : Attempt} (h : ChildStep child capacity errno s u) :
    s.child.table?.isSome = true := by
  cases h <;> simp [*, AttemptLife.table?]

section Termination

theorem acc_of_still (hs : s.child.table? = none) :
    Acc (fun t s => ChildStep child capacity errno s t) s := by
  refine ⟨_, fun u hu => ?_⟩
  have hsome := hu.table_isSome
  rw [hs] at hsome
  cases hsome

theorem acc_of_writing {p : Program Empty}
    (hnext : ∀ {s : Attempt} {t : Table}, s.child = .running p t →
      Acc (fun t s => ChildStep child capacity errno s t) s)
    {k : Nat} {bs : Bytes} {t : Table} (hs : s.child = .writing k bs p t) :
    Acc (fun t s => ChildStep child capacity errno s t) s := by
  -- a step of a write makes what is left of it shorter, or is its last one
  induction hn : bs.length using Nat.strong_induction_on generalizing s bs with
  | _ n ih =>
    refine ⟨_, fun u hu => ?_⟩
    obtain ⟨later, hlt, hu⟩ | hu | ⟨a, hu⟩ := ChildStep.of_writing hs hu
    · exact ih later.length (hn ▸ hlt) hu rfl
    · exact hnext hu
    · exact acc_of_still (by rw [hu]; rfl)

theorem acc_of_running {p : Program Empty} {t : Table} (hs : s.child = .running p t) :
    Acc (fun t s => ChildStep child capacity errno s t) s := by
  -- every call leaves a part of the program; a write takes steps of its own in between
  induction Program.partOf_wellFounded.apply p generalizing s t with
  | intro p _ ih =>
    refine ⟨_, fun u hu => ?_⟩
    obtain ⟨q, hq, t', hu | ⟨k, bs, hu⟩⟩ | ⟨a, hu⟩ := ChildStep.of_running hs hu
    · exact ih q hq hu
    · exact acc_of_writing (ih q hq) hu
    · exact acc_of_still (by rw [hu]; rfl)

theorem childStep_wellFounded (child : Pid) (capacity : Nat) (errno : Errno) :
    WellFounded fun t s => ChildStep child capacity errno s t := by
  refine ⟨fun s => ?_⟩
  cases hs : s.child with
  | running p t => exact acc_of_running hs
  | writing k bs p t => exact acc_of_writing acc_of_running hs
  | unborn => exact acc_of_still (by rw [hs]; rfl)
  | ended a => exact acc_of_still (by rw [hs]; rfl)
  | reaped => exact acc_of_still (by rw [hs]; rfl)

end Termination

end Attempt

inductive AttemptLife.Does (errno : Errno) : AttemptLife → ChildLife → Prop
  | unborn : Does errno .unborn .unborn
  | running {p : Program Empty} {t : Table} {left : List (OutputStream × Bytes)} :
      p.Performs errno t left → Does errno (.running p t) (.running OutputStream.pipe left)
  | writing {o : OutputStream} {bs : Bytes} {p : Program Empty} {t : Table}
      {left : List (OutputStream × Bytes)} :
      p.Performs errno t left →
      Does errno (.writing o.pipe bs p t) (.running OutputStream.pipe ((o, bs) :: left))
  | ended (a : Except Errno WaitStatus) : Does errno (.ended a) (.ended a)
  | reaped : Does errno .reaped .reaped

inductive Attempt.Does (errno : Errno) : Attempt → Exchange → Prop
  | mk {table : Table} {queue : Nat → Bytes} {life : AttemptLife} {life' : ChildLife}
      {interruptions : Nat} : life.Does errno life' →
      Does errno ⟨table, queue, life, interruptions⟩ ⟨table, queue, life', interruptions⟩

def Job.failed (writes : List (OutputStream × Bytes)) : Job :=
  ⟨writes, .exits Limits.execFailureStatus⟩

section Performance

variable {errno : Errno} {p : Program Empty} {t : Table} {left : List (OutputStream × Bytes)}

theorem Program.Performs.proceeds {c : Call} {next : c.Answer → Program Empty}
    (h : (Program.call c next).Performs errno t left) :
    c.Proceeds errno ⟨t, left⟩ ∧ ∀ a u, c.answersSolo errno ⟨t, left⟩ a u →
      (next a).Performs errno u.table u.left :=
  h _ (World.Others.refl _ _)

theorem Program.Performs.note {e : Event} (h : (Program.note e p).Performs errno t left) :
    p.Performs errno t left := h

theorem Program.Performs.prepare {c : Call} {next : c.Answer → Program Empty} {a : c.Answer}
    {u : Table} (h : (Program.call c next).Performs errno t left) (ha : c.prepares errno t a u) :
    (next a).Performs errno u left := by
  refine h.proceeds.2 a ⟨u, left⟩ ?_
  cases c with
  | write fd bs => exact ha.elim
  | _ => exact ⟨ha, rfl⟩

theorem Program.Performs.write {fd : Fd} {bs : Bytes} {next : Except Errno Nat → Program Empty}
    (h : (Program.call (.write fd bs) next).Performs errno t left) :
    ∃ (o : OutputStream) (later : List (OutputStream × Bytes)), t.WritesTo fd o.pipe ∧
      left = (o, bs) :: later ∧ (next (.ok bs.length)).Performs errno t later := by
  obtain ⟨⟨a, u, ha⟩, hnext⟩ := h.proceeds
  cases a with
  | error e => exact ha.1.elim
  | ok n =>
    have hperforms := hnext _ u ha
    obtain ⟨rfl, htable, o, ho, hleft⟩ := ha
    rw [htable] at hperforms
    exact ⟨o, u.left, ho, hleft, hperforms⟩

theorem Program.Performs.exit {status : Nat} {next : Empty → Program Empty}
    (h : (Program.call (.exit status) next).Performs errno t left) :
    status = Limits.execFailureStatus ∧ left = [] :=
  h.proceeds.1

theorem Program.Performs.canStep {child : Pid} {capacity : Nat} {s : Attempt}
    (h : p.Performs errno t left) (hs : s.child = .running p t) :
    ∃ u, Attempt.ChildStep child capacity errno s u := by
  cases p with
  | done a => exact a.elim
  | abort m => exact (h _ (World.Others.refl _ _)).elim
  | unfinished => exact (h _ (World.Others.refl _ _)).elim
  | note e p => exact ⟨_, .note hs⟩
  | call c next =>
    cases c with
    | exit status => exact ⟨_, .exit hs⟩
    | write fd bs =>
      obtain ⟨o, later, ho, -⟩ := h.write
      exact ⟨_, .begin hs ho⟩
    | _ =>
      obtain ⟨⟨a, u, ha⟩, -⟩ := h.proceeds
      exact ⟨_, .prepare hs ha.1⟩

end Performance

section Refinement

variable {child : Pid} {capacity : Nat} {errno : Errno} {writes : List (OutputStream × Bytes)}
  {s s' : Attempt} {t : Exchange}

theorem Attempt.Does.step (h : s.Does errno t) (hstep : ChildStep child capacity errno s s') :
    ∃ t', (World.exchange child capacity (.failed writes)).Others t t' ∧ s'.Does errno t' := by
  -- only writes and the exit are steps of a job; the rest happens inside the child
  obtain ⟨hlife⟩ := h
  cases hstep with
  | note hs =>
    obtain rfl := hs
    cases hlife with
    | running hp => exact ⟨_, .refl _ _, ⟨.running hp.note⟩⟩
  | prepare hs ha =>
    obtain rfl := hs
    cases hlife with
    | running hp => exact ⟨_, .refl _ _, ⟨.running (hp.prepare ha)⟩⟩
  | begin hs hk =>
    obtain rfl := hs
    cases hlife with
    | running hp =>
      obtain ⟨o, later, ho, rfl, hnext⟩ := hp.write
      obtain rfl := hk.inj ho
      exact ⟨_, .refl _ _, ⟨.writing hnext⟩⟩
  | write hs hnow hreader hroom =>
    obtain rfl := hs
    cases hlife with
    | writing hp => exact ⟨_, .single (.write rfl hnow hreader hroom), ⟨.writing hp⟩⟩
  | broken hs hbs hnobody =>
    obtain rfl := hs
    cases hlife with
    | writing hp => exact ⟨_, .single (.broken rfl hbs hnobody), ⟨.ended _⟩⟩
  | written hs =>
    obtain rfl := hs
    cases hlife with
    | writing hp => exact ⟨_, .single (.written rfl), ⟨.running hp⟩⟩
  | exit hs =>
    obtain rfl := hs
    cases hlife with
    | running hp =>
      obtain ⟨rfl, rfl⟩ := hp.exit
      exact ⟨_, .single (.ends rfl), ⟨.ended _⟩⟩

def Call.InOrder (errno : Errno) (writes : List (OutputStream × Bytes)) (t : Exchange) :
    Call → Prop
  | .fork task => t.child = .unborn ∧ task.main.Performs errno t.table writes ∧
      ∃ i o e b b', task.stdio = .redirect i o e ∧ t.table.entries o = some ⟨.pipe 1 .write, b⟩ ∧
        t.table.entries e = some ⟨.pipe 2 .write, b'⟩
  | .read .. => t.child = .reaped
  | _ => True

theorem AttemptLife.Does.reaped_eq {life : AttemptLife} (h : life.Does errno .reaped) :
    life = .reaped := by
  cases h
  rfl

theorem AttemptLife.Does.unborn_iff {life : AttemptLife} {life' : ChildLife}
    (h : life.Does errno life') : life = .unborn ↔ life' = .unborn := by
  cases h <;> simp

theorem Attempt.Does.hasWriter_iff (h : s.Does errno t) (ht : t.child = .reaped) (k : Nat) :
    s.HasWriter k ↔ t.HasWriter k := by
  obtain ⟨hlife⟩ := h
  obtain rfl := ht
  obtain rfl := hlife.reaped_eq
  simp [Attempt.HasWriter, Exchange.HasWriter, AttemptLife.table?]

theorem Attempt.Does.read (h : s.Does errno t) (ht : t.child = .reaped) {fd count : Nat}
    {a : Except Errno Bytes} (ha : Call.attempts child s (.read fd count) a s') :
    ∃ t', Call.exchanges child (.failed writes) t (.read fd count) a t' ∧ s'.Does errno t' := by
  have hwriter := h.hasWriter_iff ht
  obtain ⟨hlife⟩ := h
  cases a with
  | ok chunk =>
    obtain ⟨k, b, hentry, ⟨hchunk, hlength, later, hqueue, rfl⟩ | ⟨rfl, hqueue, hnone, rfl⟩⟩ := ha
    · exact ⟨_, ⟨k, b, hentry, .inl ⟨hchunk, hlength, later, hqueue, rfl⟩⟩, ⟨hlife⟩⟩
    · exact ⟨_, ⟨k, b, hentry, .inr ⟨rfl, hqueue, fun hw => hnone ((hwriter k).mpr hw), rfl⟩⟩,
        ⟨hlife⟩⟩
  | error e =>
    obtain ⟨rfl, m, rfl, rfl⟩ : e = .EINTR ∧ ∃ m, _ = m + 1 ∧ s' = Attempt.mk _ _ _ m := by
      cases e <;> first | exact ⟨rfl, ha⟩ | exact ha.elim
    exact ⟨_, ⟨m, rfl, rfl⟩, ⟨hlife⟩⟩

/-- A parent whose calls are in order sees of a child that fails to become its program what it sees
of one with a job. -/
theorem World.attempt_refines (child : Pid) (capacity : Nat) (errno : Errno)
    (writes : List (OutputStream × Bytes)) :
    (World.attempt child capacity errno).Refines (World.exchange child capacity (.failed writes))
      (Attempt.Does errno) (Call.InOrder errno writes) where
  moves h hm := h.step hm
  answers {s s' t c a} h hc ha := by
    cases c with
    | read fd count => exact h.read hc ha
    | fork task =>
      -- the one place where the program of the child and its job come in
      obtain ⟨hlife⟩ := h
      obtain ⟨rfl, hperforms, i, o, e, b, b', hstdio, hout, herr⟩ := hc
      cases a with
      | error f => exact ha.elim
      | ok pid =>
        obtain ⟨rfl, -, rfl⟩ := ha
        exact ⟨_, ⟨rfl, rfl, i, o, e, 1, 2, b, b', hstdio, hout, herr, rfl⟩, ⟨.running hperforms⟩⟩
    | makePipe =>
      obtain ⟨hlife⟩ := h
      cases a with
      | error f => exact ha.elim
      | ok ends =>
        obtain ⟨hlow, rfl⟩ := ha
        exact ⟨_, ⟨hlow, rfl⟩, ⟨hlife⟩⟩
    | close fd =>
      obtain ⟨hlife⟩ := h
      obtain rfl : s' = _ := ha
      exact ⟨_, rfl, ⟨hlife⟩⟩
    | setMask m =>
      obtain ⟨hok, rfl⟩ := ha
      obtain ⟨hlife⟩ := h
      exact ⟨_, ⟨fun hu => hok (hlife.unborn_iff.mpr hu), rfl⟩, ⟨hlife⟩⟩
    | wait pid =>
      obtain ⟨hlife⟩ := h
      obtain ⟨rfl, rfl, rfl⟩ := ha
      cases hlife
      exact ⟨_, ⟨rfl, rfl, rfl⟩, ⟨.reaped⟩⟩
    | _ => exact ha.elim

theorem Exchange.ChildStep.was_running {j : Job} {t t' : Exchange}
    (h : ChildStep child capacity j t t') : ∃ pipes left, t.child = .running pipes left := by
  cases h <;> exact ⟨_, _, ‹_›⟩

theorem Attempt.Does.canStep (h : s.Does errno t) {t' : Exchange}
    (hstep : Exchange.ChildStep child capacity (.failed writes) t t') :
    ∃ s', Attempt.ChildStep child capacity errno s s' := by
  obtain ⟨hlife⟩ := h
  cases hlife with
  | running hp => exact hp.canStep rfl
  | @writing o bs p u left hp =>
    cases hstep with
    | write hs hnow hreader hroom =>
      cases hs
      exact ⟨_, .write rfl hnow hreader hroom⟩
    | broken hs hbs hnobody =>
      cases hs
      exact ⟨_, .broken rfl hbs hnobody⟩
    | written hs =>
      cases hs
      exact ⟨_, .written rfl⟩
    | ends hs => cases hs
  | unborn | ended | reaped =>
    obtain ⟨_, _, hs⟩ := hstep.was_running
    cases hs

theorem Exchange.interrupted_of_answer {j : Job} {s t : Exchange} {fd count : Nat} {e : Errno}
    (h : Call.exchanges child j s (.read fd count) (.error e) t) :
    e = .EINTR ∧ ∃ m, s.interruptions = m + 1 ∧ t = { s with interruptions := m } := by
  cases e <;> first | exact ⟨rfl, h⟩ | exact h.elim

theorem Attempt.Does.canBeAnswered (h : s.Does errno t) {c : Call}
    (hc : c.InOrder errno writes t) {a : c.Answer} {t' : Exchange}
    (ha : Call.exchanges child (.failed writes) t c a t') :
    ∃ s', Call.attempts child s c a s' := by
  cases c with
  | read fd count =>
    have hwriter := h.hasWriter_iff hc
    obtain ⟨hlife⟩ := h
    cases a with
    | ok chunk =>
      obtain ⟨k, b, hentry, ⟨hchunk, hlength, later, hqueue, -⟩ | ⟨rfl, hqueue, hnone, -⟩⟩ := ha
      · exact ⟨_, k, b, hentry, .inl ⟨hchunk, hlength, later, hqueue, rfl⟩⟩
      · exact ⟨_, k, b, hentry, .inr ⟨rfl, hqueue, fun hw => hnone ((hwriter k).mp hw), rfl⟩⟩
    | error e =>
      obtain ⟨rfl, m, rfl, -⟩ := Exchange.interrupted_of_answer ha
      exact ⟨_, m, rfl, rfl⟩
  | fork task =>
    obtain ⟨hlife⟩ := h
    cases a with
    | error f => exact ha.elim
    | ok pid => exact ⟨_, ha.1, hlife.unborn_iff.mpr ha.2.1, rfl⟩
  | makePipe =>
    obtain ⟨hlife⟩ := h
    cases a with
    | error f => exact ha.elim
    | ok ends => exact ⟨_, ha.1, rfl⟩
  | close fd => exact ⟨_, rfl⟩
  | setMask m =>
    obtain ⟨hlife⟩ := h
    exact ⟨_, fun hu => ha.1 (hlife.unborn_iff.mp hu), rfl⟩
  | wait pid =>
    obtain ⟨hlife⟩ := h
    obtain ⟨rfl, hended, -⟩ := ha
    obtain rfl := hended
    cases hlife
    exact ⟨_, rfl, rfl, rfl⟩
  | _ => exact ha.elim

theorem Attempt.Does.canGoOn (h : s.Does errno t) {c : Call} (hc : c.InOrder errno writes t)
    (hgo : (World.exchange child capacity (.failed writes)).CanGoOn t c) :
    (World.attempt child capacity errno).CanGoOn s c := by
  rcases hgo with ⟨a, t', ha⟩ | ⟨t', hm⟩
  · exact .inl ⟨a, h.canBeAnswered hc ha⟩
  · exact .inr (h.canStep hm)

end Refinement

end OwnedHandles
