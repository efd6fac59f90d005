import OwnedHandles.Proofs.Table

/-!
A parent and a child that share pipes. The child writes to its two output streams in the order of
its program, as far as there is room, and then ends; between any two calls of the parent it may do
so any number of times. A read takes any part of what is there, or is interrupted.
-/

namespace OwnedHandles

inductive OutputStream
  | stdout | stderr
  deriving DecidableEq, Repr

inductive ChildEnd
  | exits (code : Int)
  | killed (signal : Nat) (core : Bool)
  deriving DecidableEq, Repr

structure Job where
  writes : List (OutputStream × Bytes)
  ending : ChildEnd
  deriving DecidableEq, Repr

def OutputStream.among (out err : Nat) : OutputStream → Nat
  | stdout => out
  | stderr => err

def OutputStream.total (o : OutputStream) (writes : List (OutputStream × Bytes)) : Bytes :=
  (writes.filter fun w => w.1 = o).flatMap Prod.snd

@[simp] theorem OutputStream.total_nil (o : OutputStream) : o.total [] = [] := rfl

theorem OutputStream.total_cons (o : OutputStream) (w : OutputStream × Bytes)
    (writes : List (OutputStream × Bytes)) :
    o.total (w :: writes) = (if w.1 = o then w.2 else []) ++ o.total writes := by
  by_cases h : w.1 = o <;> simp [total, h]

namespace Job

def written (j : Job) (o : OutputStream) : Bytes := o.total j.writes

def Fits (j : Job) (capacity : Nat) : Prop := ∀ o, (j.written o).length ≤ capacity

/-- What a wait for the child says. A signal beyond the classic ones has no name to be reported
by. -/
def told (j : Job) (child : Pid) : Except Errno WaitStatus :=
  match j.ending with
  | .exits code => .ok (.exited child code)
  | .killed signal core =>
    match Signal.ofNumber? signal with
    | some s => .ok (.signaled child s core)
    | none => .error .EINVAL

def result (j : Job) (commandText : String) (child : Pid) : Except Failure String :=
  match j.ending with
  | .exits code =>
    if code = 0 then .ok (Text.decodeLossy (j.written .stdout))
    else .error (.executionFailed commandText code (Text.decodeLossy (j.written .stderr)))
  | .killed signal _ =>
    if (Signal.ofNumber? signal).isSome then .error (.signaled signal)
    else .error (.callFailed "waitpid"
      (ProcessHandle.context { pid := child, name := some commandText }) .EINVAL)

end Job

inductive ChildLife
  | unborn
  | running (pipes : OutputStream → Nat) (left : List (OutputStream × Bytes))
  | ended (told : Except Errno WaitStatus)
  | reaped

def Table.Has (s : Table) (k : Nat) (side : PipeSide) : Prop :=
  ∃ n closeOnExec, s.entries n = some ⟨.pipe k side, closeOnExec⟩

structure Exchange where
  table : Table
  queue : Nat → Bytes
  child : ChildLife
  interruptions : Nat

namespace Exchange

def start (given : Fd → Option Bool) (interruptions : Nat) : Exchange :=
  ⟨.before given, fun _ => [], .unborn, interruptions⟩

def setQueue (s : Exchange) (k : Nat) (bs : Bytes) : Exchange :=
  { s with queue := fun n => if n = k then bs else s.queue n }

@[simp] theorem setQueue_table (s : Exchange) (k : Nat) (bs : Bytes) :
    (s.setQueue k bs).table = s.table := rfl

@[simp] theorem setQueue_child (s : Exchange) (k : Nat) (bs : Bytes) :
    (s.setQueue k bs).child = s.child := rfl

@[simp] theorem setQueue_interruptions (s : Exchange) (k : Nat) (bs : Bytes) :
    (s.setQueue k bs).interruptions = s.interruptions := rfl

@[simp] theorem setQueue_queue (s : Exchange) (k n : Nat) (bs : Bytes) :
    (s.setQueue k bs).queue n = if n = k then bs else s.queue n := rfl

def HasWriter (s : Exchange) (k : Nat) : Prop :=
  s.table.Has k .write ∨ ∃ pipes left o, s.child = .running pipes left ∧ pipes o = k

/-- A step of the child. It is stuck with a write as long as there is no room, and a write to a
pipe that nobody reads from kills it. -/
inductive ChildStep (child : Pid) (capacity : Nat) (j : Job) : Exchange → Exchange → Prop
  | write {s : Exchange} {pipes : OutputStream → Nat} {o : OutputStream} {now later : Bytes}
      {left : List (OutputStream × Bytes)} :
      s.child = .running pipes ((o, now ++ later) :: left) → now ≠ [] →
      s.table.Has (pipes o) .read → (s.queue (pipes o)).length + now.length ≤ capacity →
      ChildStep child capacity j s { s.setQueue (pipes o) (s.queue (pipes o) ++ now) with
        child := .running pipes ((o, later) :: left) }
  | broken {s : Exchange} {pipes : OutputStream → Nat} {o : OutputStream} {bs : Bytes}
      {left : List (OutputStream × Bytes)} :
      s.child = .running pipes ((o, bs) :: left) → bs ≠ [] → ¬s.table.Has (pipes o) .read →
      ChildStep child capacity j s
        { s with child := .ended (.ok (.signaled child .SIGPIPE false)) }
  | written {s : Exchange} {pipes : OutputStream → Nat} {o : OutputStream}
      {left : List (OutputStream × Bytes)} :
      s.child = .running pipes ((o, []) :: left) →
      ChildStep child capacity j s { s with child := .running pipes left }
  | ends {s : Exchange} {pipes : OutputStream → Nat} :
      s.child = .running pipes [] →
      ChildStep child capacity j s { s with child := .ended (j.told child) }

end Exchange

/-- How the system answers a parent that nothing goes wrong for. Its pipes and its child are made;
a wait is over when the child has ended; a read gives a part of what is there, waits while nothing
is there and somebody may still write, or is interrupted. -/
def Call.exchanges (child : Pid) (j : Job) (s : Exchange) : (c : Call) → c.Answer → Exchange → Prop
  | .makePipe, .ok (r, w), t => s.table.AreLowest r w ∧ t = { s with table := s.table.addPipe r w }
  | .close fd, _, t => t = { s with table := s.table.remove fd }
  | .setMask _, a, t => (s.child = .unborn → a.isOk = true) ∧ t = s
  | .fork task, .ok pid, t => pid = child ∧ s.child = .unborn ∧
      ∃ i o e out err b b', task.stdio = .redirect i o e ∧
        s.table.entries o = some ⟨.pipe out .write, b⟩ ∧
        s.table.entries e = some ⟨.pipe err .write, b'⟩ ∧
        t = { s with child := .running (OutputStream.among out err) j.writes }
  | .wait pid, a, t => pid = child ∧ s.child = .ended a ∧ t = { s with child := .reaped }
  | .read fd count, .ok chunk, t => ∃ k b, s.table.entries fd = some ⟨.pipe k .read, b⟩ ∧
      ((chunk ≠ [] ∧ chunk.length ≤ count ∧ ∃ later, s.queue k = chunk ++ later ∧
          t = s.setQueue k later) ∨
        (chunk = [] ∧ s.queue k = [] ∧ ¬s.HasWriter k ∧ t = s))
  | .read _ _, .error .EINTR, t => ∃ m, s.interruptions = m + 1 ∧ t = { s with interruptions := m }
  | _, _, _ => False

def World.exchange (child : Pid) (capacity : Nat) (j : Job) : World Exchange :=
  ⟨Call.exchanges child j, Exchange.ChildStep child capacity j⟩

namespace Exchange

variable {child : Pid} {capacity : Nat} {j : Job} {s t : Exchange}

def effort (s : Exchange) : Nat :=
  match s.child with
  | .running _ left => (left.flatMap Prod.snd).length + left.length + 1
  | _ => 0

theorem ChildStep.effort_lt (h : ChildStep child capacity j s t) : t.effort < s.effort := by
  cases h with
  | write hs hnow =>
    have hlength := List.length_pos_iff.mpr hnow
    simp [effort, hs]
    omega
  | broken hs => simp [effort, hs]
  | written hs => simp [effort, hs]
  | ends hs => simp [effort, hs]

theorem childStep_wellFounded (child : Pid) (capacity : Nat) (j : Job) :
    WellFounded fun t s => ChildStep child capacity j s t :=
  Subrelation.wf (fun h => h.effort_lt) (measure effort).wf

theorem others_eq (hs : ∀ pipes left, s.child ≠ .running pipes left)
    (h : (World.exchange child capacity j).Others s t) : t = s := by
  induction h with
  | refl => rfl
  | tail _ hm ih =>
    subst ih
    cases hm with
    | write h => exact absurd h (hs _ _)
    | broken h => exact absurd h (hs _ _)
    | written h => exact absurd h (hs _ _)
    | ends h => exact absurd h (hs _ _)

end Exchange

def OutputStream.pipe : OutputStream → Nat := among 1 2

@[simp] theorem OutputStream.pipe_inj {o o' : OutputStream} : o.pipe = o'.pipe ↔ o = o' := by
  cases o <;> cases o' <;> decide

structure Exchange.AtWork (child : Pid) (capacity : Nat) (j : Job) (table : Table)
    (interruptions : Nat) (s : Exchange) : Prop where
  table_eq : s.table = table
  interruptions_eq : s.interruptions = interruptions
  reader : ∀ o : OutputStream, table.Has o.pipe .read
  room : ∀ o : OutputStream, (s.queue o.pipe).length ≤ capacity
  written : ∃ left, (s.child = .running OutputStream.pipe left ∨
      s.child = .ended (j.told child) ∧ left = []) ∧
    ∀ o : OutputStream, s.queue o.pipe ++ o.total left = j.written o

namespace Exchange.AtWork

variable {child : Pid} {capacity interruptions : Nat} {j : Job} {table : Table}
  {s t : Exchange}

theorem step (h : s.AtWork child capacity j table interruptions)
    (hm : ChildStep child capacity j s t) : t.AtWork child capacity j table interruptions := by
  obtain ⟨rfl, rfl, hreader, hroom, left, hchild, hwritten⟩ := h
  have hleft {pipes : OutputStream → Nat} {l : List (OutputStream × Bytes)}
      (h : s.child = .running pipes l) : pipes = OutputStream.pipe ∧ l = left := by
    rcases hchild with heq | ⟨heq, -⟩
    · exact ChildLife.running.inj (h.symm.trans heq)
    · cases h.symm.trans heq
  cases hm with
  | @write pipes o now later rest hs hnow _ hfits =>
    obtain ⟨rfl, rfl⟩ := hleft hs
    refine ⟨rfl, rfl, hreader, fun o' => ?_, (o, later) :: rest, .inl rfl, fun o' => ?_⟩
    · by_cases ho : o' = o
      · simpa [ho] using hfits
      · simpa [ho] using hroom o'
    · have htotal := hwritten o'
      rw [OutputStream.total_cons] at htotal ⊢
      by_cases ho : o' = o
      · simpa [ho] using htotal
      · simpa [ho, Ne.symm ho] using htotal
  | broken hs _ hnobody =>
    obtain ⟨rfl, -⟩ := hleft hs
    exact absurd (hreader _) hnobody
  | @written pipes o rest hs =>
    obtain ⟨rfl, rfl⟩ := hleft hs
    refine ⟨rfl, rfl, hreader, hroom, rest, .inl rfl, fun o' => ?_⟩
    simpa [OutputStream.total_cons] using hwritten o'
  | ends hs =>
    obtain ⟨-, rfl⟩ := hleft hs
    exact ⟨rfl, rfl, hreader, hroom, [], .inr ⟨rfl, rfl⟩, hwritten⟩

theorem others (h : s.AtWork child capacity j table interruptions)
    (ho : (World.exchange child capacity j).Others s t) :
    t.AtWork child capacity j table interruptions :=
  ho.keeps (fun _ _ hm hs => hs.step hm) h

theorem close (h : s.AtWork child capacity j table interruptions) {fd : Fd}
    (hreader : ∀ o : OutputStream, (table.remove fd).Has o.pipe .read) :
    { s with table := s.table.remove fd }.AtWork child capacity j (table.remove fd)
      interruptions := by
  obtain ⟨rfl, rfl, -, hroom, hwritten⟩ := h
  exact ⟨rfl, rfl, hreader, hroom, hwritten⟩

theorem of_ended (h : s.AtWork child capacity j table interruptions)
    {a : Except Errno WaitStatus} (ha : s.child = .ended a) :
    a = j.told child ∧ j.Fits capacity ∧ ∀ o : OutputStream, s.queue o.pipe = j.written o := by
  obtain ⟨left, hchild | ⟨hchild, rfl⟩, hwritten⟩ := h.written
  · cases ha.symm.trans hchild
  · have hall : ∀ o : OutputStream, s.queue o.pipe = j.written o := by
      simpa using hwritten
    exact ⟨ChildLife.ended.inj (ha.symm.trans hchild), fun o => hall o ▸ h.room o, hall⟩

theorem canGoOn_wait (h : s.AtWork child capacity j table interruptions)
    (hfits : j.Fits capacity) : (World.exchange child capacity j).CanGoOn s (.wait child) := by
  obtain ⟨left, hchild | ⟨hchild, -⟩, hwritten⟩ := h.written
  · refine .inr ?_
    match left with
    | [] => exact ⟨_, .ends hchild⟩
    | (o, []) :: left => exact ⟨_, .written hchild⟩
    | (o, b :: bs) :: left =>
      have hroom : (s.queue o.pipe).length + (b :: bs).length ≤ capacity := by
        have hlength := congrArg List.length (hwritten o)
        have hall := hfits o
        simp only [OutputStream.total_cons, if_true, List.length_append] at hlength
        omega
      have hwrite : s.child = .running OutputStream.pipe ((o, b :: bs ++ []) :: left) := by
        rw [List.append_nil]
        exact hchild
      exact ⟨_, .write hwrite (List.cons_ne_nil b bs) (h.table_eq ▸ h.reader o) hroom⟩
  · exact .inl ⟨j.told child, _, rfl, hchild, rfl⟩

end Exchange.AtWork

structure Exchange.Delivered (j : Job) (table : Table) (interruptions : Nat) (s : Exchange) :
    Prop where
  table_eq : s.table = table
  interruptions_eq : s.interruptions = interruptions
  child_eq : s.child = .reaped
  queue_eq : ∀ o : OutputStream, s.queue o.pipe = j.written o

def Contract.exchange {α : Type} (child : Pid) (capacity : Nat) (j : Job)
    (R : α → Exchange → Prop) : Contract Exchange α where
  calls s c := j.Fits capacity → (World.exchange child capacity j).CanGoOn s c
  returns := R
  breaks _ _ := False
  givesUp _ := False

def Contract.ok {σ α : Type} (P : α → σ → Prop) (r : Except Failure α) (t : σ) : Prop :=
  ∃ a, r = .ok a ∧ P a t

namespace Contract.exchange

variable {α β : Type} {child : Pid} {capacity : Nat} {j : Job} {s : Exchange}
  {P : α → Exchange → Prop} {R : Except Failure β → Exchange → Prop}

theorem done {R : α → Exchange → Prop} {a : α}
    (hs : ∀ pipes left, s.child ≠ .running pipes left) (h : R a s) :
    (World.exchange child capacity j).Meets (exchange child capacity j R) (.done a) s := by
  intro t ht
  obtain rfl := Exchange.others_eq hs ht
  exact h

theorem bind {p : Action α} {f : α → Action β}
    (hp : (World.exchange child capacity j).Meets (exchange child capacity j (ok P)) p.run s)
    (hf : ∀ a t, P a t →
      (World.exchange child capacity j).Meets (exchange child capacity j R) (f a).run t) :
    (World.exchange child capacity j).Meets (exchange child capacity j R) (p >>= f).run s := by
  refine (World.meets_action_bind _ _ _).mpr (hp.returning fun r t ht => ?_)
  obtain ⟨a, rfl, ha⟩ := ht
  exact hf a t ha

theorem onLeave {p : Action α} {fin : Program Unit}
    (hp : (World.exchange child capacity j).Meets (exchange child capacity j (ok P)) p.run s) :
    (World.exchange child capacity j).Meets (exchange child capacity j (ok P))
      (p.onLeave fin).run s := by
  refine (World.meets_leaving _ _ _ _).mpr (hp.settled.weaken (fun _ _ h => h) (fun r t ht => ?_)
    (fun _ _ h => h.elim) (fun _ h => h))
  obtain ⟨a, rfl, -⟩ := ht t (World.Others.refl _ t)
  exact ht

end Contract.exchange

end OwnedHandles
