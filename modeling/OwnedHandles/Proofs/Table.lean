import Mathlib.Data.Nat.Find
import OwnedHandles.Proofs.Calls
import OwnedHandles.Proofs.Runs

namespace OwnedHandles

inductive PipeSide
  | read | write
  deriving DecidableEq, Repr

/-- Where an open file comes from: the process had it on a number before, it is a side of a pipe
made since, or a file opened since. -/
inductive Origin
  | earlier (fd : Fd)
  | pipe (index : Nat) (side : PipeSide)
  | opened (index : Nat) (path : Bytes)
  deriving DecidableEq, Repr

structure TableEntry where
  origin : Origin
  closeOnExec : Bool
  deriving DecidableEq, Repr

structure Table where
  entries : Fd → Option TableEntry
  pipes : Nat
  openings : Nat

namespace Table

def before (given : Fd → Option Bool) : Table :=
  ⟨fun n => (given n).map fun closeOnExec => ⟨.earlier n, closeOnExec⟩, 0, 0⟩

def put (s : Table) (fd : Fd) (e : TableEntry) : Table :=
  { s with entries := fun n => if n = fd then some e else s.entries n }

def remove (s : Table) (fd : Fd) : Table :=
  { s with entries := fun n => if n = fd then none else s.entries n }

def addPipe (s : Table) (r w : Fd) : Table :=
  { (s.put r ⟨.pipe s.pipes .read, true⟩).put w ⟨.pipe s.pipes .write, true⟩ with
    pipes := s.pipes + 1 }

def addFile (s : Table) (fd : Fd) (path : Bytes) (closeOnExec : Bool) : Table :=
  { s.put fd ⟨.opened s.openings path, closeOnExec⟩ with openings := s.openings + 1 }

def removeAbove (s : Table) (limit : Fd) (fds : List Fd) : Table :=
  { s with entries := fun n => if limit < n ∧ n ∈ fds then none else s.entries n }

def installed (s : Table) (stdin stdout stderr : Fd) (x y z : TableEntry) : Table :=
  (((s.put 0 { x with closeOnExec := false }).put 1 { y with closeOnExec := false }).put 2
    { z with closeOnExec := false }).removeAbove 2 [stdin, stdout, stderr]

def IsLowest (s : Table) (fd : Fd) : Prop :=
  s.entries fd = none ∧ ∀ n < fd, s.entries n ≠ none

def image (s : Table) : Fd → Option Origin := fun n =>
  match s.entries n with
  | some ⟨origin, false⟩ => some origin
  | _ => none

variable {s : Table} {a b fd : Fd} {e : TableEntry}

@[simp] theorem before_entries (given : Fd → Option Bool) (n : Fd) :
    (before given).entries n = (given n).map fun closeOnExec => ⟨.earlier n, closeOnExec⟩ := rfl

theorem before_entries_ne {given : Fd → Option Bool} {n : Fd} {e : TableEntry}
    (h : ∀ m, e.origin ≠ .earlier m) : (before given).entries n ≠ some e := by
  intro hn
  obtain ⟨closeOnExec, -, rfl⟩ := Option.map_eq_some_iff.mp hn
  exact h n rfl

@[simp] theorem put_entries (s : Table) (fd n : Fd) (e : TableEntry) :
    (s.put fd e).entries n = if n = fd then some e else s.entries n := rfl

@[simp] theorem put_pipes (s : Table) (fd : Fd) (e : TableEntry) :
    (s.put fd e).pipes = s.pipes := rfl

@[simp] theorem put_openings (s : Table) (fd : Fd) (e : TableEntry) :
    (s.put fd e).openings = s.openings := rfl

@[simp] theorem remove_entries (s : Table) (fd n : Fd) :
    (s.remove fd).entries n = if n = fd then none else s.entries n := rfl

@[simp] theorem addPipe_entries (s : Table) (r w n : Fd) :
    (s.addPipe r w).entries n = if n = w then some ⟨.pipe s.pipes .write, true⟩
      else if n = r then some ⟨.pipe s.pipes .read, true⟩ else s.entries n := rfl

@[simp] theorem addPipe_pipes (s : Table) (r w : Fd) : (s.addPipe r w).pipes = s.pipes + 1 := rfl

@[simp] theorem addFile_entries (s : Table) (fd n : Fd) (path : Bytes) (closeOnExec : Bool) :
    (s.addFile fd path closeOnExec).entries n =
      if n = fd then some ⟨.opened s.openings path, closeOnExec⟩ else s.entries n := rfl

@[simp] theorem addFile_openings (s : Table) (fd : Fd) (path : Bytes) (closeOnExec : Bool) :
    (s.addFile fd path closeOnExec).openings = s.openings + 1 := rfl

@[simp] theorem removeAbove_entries (s : Table) (limit n : Fd) (fds : List Fd) :
    (s.removeAbove limit fds).entries n = if limit < n ∧ n ∈ fds then none else s.entries n := rfl

@[simp] theorem removeAbove_nil (s : Table) (limit : Fd) : s.removeAbove limit [] = s := by
  simp [removeAbove]

theorem remove_removeAbove (s : Table) {limit : Fd} (h : limit < fd) (fds : List Fd) :
    (s.remove fd).removeAbove limit fds = s.removeAbove limit (fd :: fds) := by
  simp only [remove, removeAbove, Table.mk.injEq, and_true]
  funext n
  by_cases hn : n = fd
  · simp [hn, h]
  · simp [hn]

theorem removeAbove_cons (s : Table) {limit : Fd} (h : ¬limit < fd) (fds : List Fd) :
    s.removeAbove limit (fd :: fds) = s.removeAbove limit fds := by
  simp only [removeAbove, Table.mk.injEq, and_true]
  funext n
  by_cases hn : n = fd
  · simp [hn, h]
  · simp [hn]

/-- Numbers handed out one after the other increase, as long as none is given back. -/
theorem IsLowest.lt (ha : s.IsLowest a) (hb : (s.put a e).IsLowest b) : a < b := by
  apply Nat.lt_of_not_le
  intro hle
  obtain hlt | rfl := Nat.lt_or_eq_of_le hle
  · have hfree := hb.1
    rw [put_entries, if_neg (Nat.ne_of_lt hlt)] at hfree
    exact ha.2 b hlt hfree
  · simp [IsLowest] at hb

def AreLowest (s : Table) (r w : Fd) : Prop :=
  s.IsLowest r ∧ (s.put r ⟨.pipe s.pipes .read, true⟩).IsLowest w

variable {r w : Fd}

theorem AreLowest.lt (h : s.AreLowest r w) : r < w := h.1.lt h.2

theorem AreLowest.lt_next (h : s.AreLowest r w) (hfd : (s.addPipe r w).IsLowest fd) : w < fd :=
  h.2.lt hfd

theorem AreLowest.free (h : s.AreLowest r w) : s.entries w = none := by
  have hw := h.2.1
  rwa [put_entries, if_neg (Nat.ne_of_gt h.lt)] at hw

def Bounded (s : Table) : Prop := ∃ m, ∀ n, m ≤ n → s.entries n = none

theorem put_entries_ne_none (h : s.entries a ≠ none) (fd : Fd) (e : TableEntry) :
    (s.put fd e).entries a ≠ none := by
  by_cases ha : a = fd
  · simp [ha]
  · simpa [ha] using h

theorem Bounded.before {given : Fd → Option Bool} {bound : Fd}
    (h : ∀ n, bound ≤ n → given n = none) : (before given).Bounded :=
  ⟨bound, fun n hn => by simp [h n hn]⟩

theorem Bounded.put (h : s.Bounded) (fd : Fd) (e : TableEntry) : (s.put fd e).Bounded := by
  obtain ⟨m, hm⟩ := h
  refine ⟨max m (fd + 1), fun n hn => ?_⟩
  have hne : n ≠ fd := Nat.ne_of_gt (Nat.le_trans (Nat.le_max_right m (fd + 1)) hn)
  rw [put_entries, if_neg hne]
  exact hm n (Nat.le_trans (Nat.le_max_left m (fd + 1)) hn)

theorem Bounded.addPipe (h : s.Bounded) (r w : Fd) : (s.addPipe r w).Bounded :=
  (h.put r _).put w _

theorem Bounded.exists_isLowest (h : s.Bounded) : ∃ fd, s.IsLowest fd := by
  have hfree : ∃ n, s.entries n = none := h.imp fun m hm => hm m (Nat.le_refl m)
  classical
  exact ⟨Nat.find hfree, Nat.find_spec hfree, fun n hn => Nat.find_min hfree hn⟩

theorem Bounded.exists_areLowest (h : s.Bounded) : ∃ r w, s.AreLowest r w := by
  obtain ⟨r, hr⟩ := h.exists_isLowest
  obtain ⟨w, hw⟩ := (h.put r ⟨.pipe s.pipes .read, true⟩).exists_isLowest
  exact ⟨r, w, hr, hw⟩

end Table

/-- What a call does to the table of the process that makes it. A call that fails leaves it
alone, except that closing frees the number whatever it reports. -/
def Call.rewires (s : Table) : (c : Call) → c.Answer → Table → Prop
  | .makePipe, .ok (r, w), t => s.AreLowest r w ∧ t = s.addPipe r w
  | .openFile path flags _, .ok fd, t => s.IsLowest fd ∧
      t = s.addFile fd path (flags.has .closeOnExec)
  | .close fd, _, t => t = s.remove fd
  | .duplicate fd target, .ok _, t => ∃ e, s.entries fd = some e ∧
      t = if fd = target then s else s.put target { e with closeOnExec := false }
  | .setCloseOnExec fd on, .ok _, t => ∃ e, s.entries fd = some e ∧
      t = s.put fd { e with closeOnExec := on }
  | _, _, t => t = s

def World.tables : World Table := World.alone Call.rewires

def Call.KeepsEntries : Call → Prop
  | .openFile .. | .makePipe | .duplicate .. | .close _ | .setCloseOnExec .. => False
  | _ => True

theorem Call.KeepsEntries.frame {c : Call} (hc : c.KeepsEntries) {s t : Table} {a : c.Answer}
    (h : c.rewires s a t) : t = s := by
  cases c <;> first | exact hc.elim | exact h

def Call.SetsUp (s : Table) : Call → Prop
  | .duplicate fd _ | .setCloseOnExec fd _ => ∃ e, s.entries fd = some e
  | .close _ => True
  | _ => False

/-- In these states of a world, the calls that put descriptors in place do what they do to a table.
They fail only if `fails` allows it. -/
structure World.SetsUp {σ : Type} (w : World σ) (on : Table → σ) (fails : Prop) : Prop where
  others {s : Table} {u : σ} : w.Others (on s) u → u = on s
  duplicate {s : Table} {u : σ} {fd target : Fd} {a : Except Errno Unit} :
    w.answers (on s) (.duplicate fd target) a u →
      (a.isOk = false → fails) ∧ ∃ t, u = on t ∧ (Call.duplicate fd target).rewires s a t
  setCloseOnExec {s : Table} {u : σ} {fd : Fd} {value : Bool} {a : Except Errno Unit} :
    w.answers (on s) (.setCloseOnExec fd value) a u →
      (a.isOk = false → fails) ∧ ∃ t, u = on t ∧ (Call.setCloseOnExec fd value).rewires s a t
  close {s : Table} {u : σ} {fd : Fd} {a : Except Errno Unit} :
    w.answers (on s) (.close fd) a u → u = on (s.remove fd)

theorem World.tables_setsUp : World.tables.SetsUp id True where
  others h := (World.others_alone _).mp h
  duplicate h := ⟨fun _ => trivial, _, rfl, h⟩
  setCloseOnExec h := ⟨fun _ => trivial, _, rfl, h⟩
  close h := h

structure World.MaySetUp {σ : Type} (w : World σ) (on : Table → σ) : Prop where
  duplicate {s : Table} {fd target : Fd} {e : TableEntry} : s.entries fd = some e → fd ≠ target →
    w.answers (on s) (.duplicate fd target) (.ok ())
      (on (s.put target { e with closeOnExec := false }))
  setCloseOnExec {s : Table} {fd : Fd} {e : TableEntry} (value : Bool) : s.entries fd = some e →
    w.answers (on s) (.setCloseOnExec fd value) (.ok ())
      (on (s.put fd { e with closeOnExec := value }))
  close (s : Table) (fd : Fd) : w.answers (on s) (.close fd) (.ok ()) (on (s.remove fd))

theorem World.tables_maySetUp : World.tables.MaySetUp id where
  duplicate he hne := ⟨_, he, (if_neg hne).symm⟩
  setCloseOnExec _ he := ⟨_, he, rfl⟩
  close _ _ := rfl

namespace ChildStdio

variable {σ : Type} {w : World σ} {on : Table → σ} {fails : Prop} {s : Table}

section Install

variable {q : Contract σ (Except (String × Errno) Unit)}

theorem install_meets (hw : w.SetsUp on fails) {fd target : Fd} {e : TableEntry}
    {rest : List (Fd × Fd)} (he : s.entries fd = some e)
    (hcalls : ∀ t c, c.SetsUp t → q.calls (on t) c)
    (hfailed : fails → ∀ f t, q.returns (.error f) t)
    (hrest : w.Meets q (install rest) (on (s.put target { e with closeOnExec := false }))) :
    w.Meets q (install ((fd, target) :: rest)) (on s) := by
  unfold install
  split
  · rename_i heq
    subst heq
    intro t ht
    obtain rfl := hw.others ht
    refine ⟨hcalls s _ ⟨e, he⟩, fun a u ha => ?_⟩
    obtain ⟨hfail, t, rfl, ht⟩ := hw.setCloseOnExec ha
    cases a with
    | error f => exact fun v _ => hfailed (hfail rfl) _ v
    | ok b =>
      obtain ⟨e', he', rfl⟩ := ht
      obtain rfl := Option.some.inj (he.symm.trans he')
      exact hrest
  · rename_i hne
    intro t ht
    obtain rfl := hw.others ht
    refine ⟨hcalls s _ ⟨e, he⟩, fun a u ha => ?_⟩
    obtain ⟨hfail, t, rfl, ht⟩ := hw.duplicate ha
    cases a with
    | error f => exact fun v _ => hfailed (hfail rfl) _ v
    | ok b =>
      obtain ⟨e', he', rfl⟩ := ht
      obtain rfl := Option.some.inj (he.symm.trans he')
      rw [if_neg hne]
      exact hrest

end Install

theorem closeAbove_meets {q : Contract σ Unit} (hw : w.SetsUp on fails) (limit : Fd)
    (fds : List Fd) (hcalls : ∀ t c, c.SetsUp t → q.calls (on t) c)
    (hreturns : q.returns () (on (s.removeAbove limit fds))) :
    w.Meets q (closeAbove limit fds) (on s) := by
  induction fds generalizing s with
  | nil =>
    intro t ht
    obtain rfl := hw.others ht
    simpa using hreturns
  | cons fd fds ih =>
    unfold closeAbove
    split
    · intro t ht
      obtain rfl := hw.others ht
      refine ⟨hcalls s _ trivial, fun a u ha => ?_⟩
      obtain rfl := hw.close ha
      exact ih (s.remove_removeAbove ‹_› fds ▸ hreturns)
    · exact ih (s.removeAbove_cons ‹_› fds ▸ hreturns)

/-- The streams end up on their numbers, if nothing fails. What is installed first does not hit a
source that is still needed, because the numbers of the later sources are higher. -/
theorem wire_meets {q : Contract σ (Except (String × Errno) Unit)} (hw : w.SetsUp on fails)
    {stdin stdout stderr : Fd} {x y z : TableEntry} (hin : s.entries stdin = some x)
    (hout : s.entries stdout = some y) (herr : s.entries stderr = some z) (hout0 : stdout ≠ 0)
    (herr0 : stderr ≠ 0) (herr1 : stderr ≠ 1) (hcalls : ∀ t c, c.SetsUp t → q.calls (on t) c)
    (hfailed : fails → ∀ f t, q.returns (.error f) t)
    (hwired : q.returns (.ok ()) (on (s.installed stdin stdout stderr x y z))) :
    w.Meets q (wire (.redirect stdin stdout stderr)) (on s) := by
  unfold wire
  apply (World.meets_bind _ _ _).mpr
  have hleft (h : fails) (f : String × Errno) (t : σ) :
      w.Meets q (.done (.error f)) t := fun u _ => hfailed h f u
  refine install_meets hw hin hcalls hleft ?_
  refine install_meets hw (e := y) (by simpa [hout0] using hout) hcalls hleft ?_
  refine install_meets hw (e := z) (by simpa [herr0, herr1] using herr) hcalls hleft ?_
  intro t ht
  obtain rfl := hw.others ht
  refine (World.meets_bind _ _ _).mpr (closeAbove_meets hw 2 _ hcalls fun u hu => ?_)
  obtain rfl := hw.others hu
  exact hwired

theorem install_returns (hw : w.MaySetUp on) {pairs : List (Fd × Fd)}
    (hopen : ∀ p ∈ pairs, s.entries p.1 ≠ none) :
    ∃ t, w.Returns (install pairs) (on s) (.ok ()) (on t) := by
  induction pairs generalizing s with
  | nil => exact ⟨s, .refl⟩
  | cons p pairs ih =>
    obtain ⟨fd, target⟩ := p
    obtain ⟨hfd, hrest⟩ := List.forall_mem_cons.mp hopen
    obtain ⟨e, he⟩ := Option.ne_none_iff_exists'.mp hfd
    obtain ⟨t, ht⟩ := ih (s := s.put target { e with closeOnExec := false }) fun p hp =>
      Table.put_entries_ne_none (hrest p hp) _ _
    refine ⟨t, ?_⟩
    unfold install
    split
    · rename_i heq
      subst heq
      exact .call (.ok ()) (hw.setCloseOnExec false he) ht
    · rename_i hne
      exact .call (.ok ()) (hw.duplicate he hne) ht

theorem closeAbove_returns (hw : w.MaySetUp on) (limit : Fd) (fds : List Fd) (s : Table) :
    ∃ t, w.Returns (closeAbove limit fds) (on s) () (on t) := by
  induction fds generalizing s with
  | nil => exact ⟨s, .refl⟩
  | cons fd fds ih =>
    unfold closeAbove
    split
    · obtain ⟨t, ht⟩ := ih (s.remove fd)
      exact ⟨t, .call (.ok ()) (hw.close s fd) ht⟩
    · exact ih s

theorem wire_returns (hw : w.MaySetUp on) {stdio : ChildStdio}
    (hopen : ∀ fd ∈ stdio.numbers, s.entries fd ≠ none) :
    ∃ t, w.Returns stdio.wire (on s) (.ok ()) (on t) := by
  cases stdio with
  | inherit => exact ⟨s, .refl⟩
  | redirect stdin stdout stderr =>
    have hsources : ∀ p ∈ [(stdin, 0), (stdout, 1), (stderr, 2)], s.entries p.1 ≠ none := by
      simpa [numbers] using hopen
    obtain ⟨t, ht⟩ := install_returns hw hsources
    obtain ⟨u, hu⟩ := closeAbove_returns hw 2 [stdin, stdout, stderr] t
    exact ⟨u, ht.bind (hu.bind .refl)⟩

end ChildStdio

def Contract.onExec {α : Type} (P : Table → Prop) : Contract Table α :=
  ⟨fun t c => ∀ args env, c = .exec args env → P t, fun _ _ => True, fun _ _ => True,
    fun _ => True⟩

theorem Program.Makes.quiet {α : Type} {q : Contract Table α} {p : Program α} {s : Table}
    (hp : p.Makes fun c => c.KeepsEntries ∧ ∀ args env, c ≠ .exec args env)
    (hcalls : ∀ t c, (∀ args env, c ≠ .exec args env) → q.calls t c)
    (hreturns : ∀ a, q.returns a s) (hbreaks : ∀ m, q.breaks m s) (hgivesUp : q.givesUp s) :
    World.tables.Meets q p s :=
  hp.meets (fun _ ht => (World.others_alone _).mp ht) (fun _ _ _ hc ha => hc.1.frame ha)
    (fun c hc => hcalls s c hc.2) hreturns hbreaks hgivesUp

namespace ChildTask

theorem become_calls_exec {σ : Type} {w : World σ} {on : Table → σ} (hw : w.MaySetUp on)
    {t : ChildTask} {s : Table} (hopen : ∀ fd ∈ t.stdio.numbers, s.entries fd ≠ none) :
    ∃ u, w.Calls t.become (on s) (.exec t.plan.arguments t.plan.environment) (on u) := by
  obtain ⟨u, hu⟩ := ChildStdio.wire_returns hw hopen
  exact ⟨u, hu.calls_bind ⟨_, .refl⟩⟩

theorem main_calls_exec {t : ChildTask} {s : Table}
    (hopen : ∀ fd ∈ t.stdio.numbers, s.entries fd ≠ none) :
    ∃ u, World.tables.Calls t.main s (.exec t.plan.arguments t.plan.environment) u := by
  have hreset : World.tables.Returns t.resetDispositions s () s := by
    refine .call (.ok ()) rfl (.call (.ok ()) rfl ?_)
    cases t.detached with
    | false => exact .refl
    | true => exact .call (.ok ()) rfl .refl
  obtain ⟨u, next, hu⟩ := become_calls_exec World.tables_maySetUp hopen
  exact ⟨u, hreset.calls_bind ⟨next, .call (.ok t.mask) rfl hu⟩⟩

theorem main_meets {t : ChildTask} {s : Table} {stdin stdout stderr : Fd} {x y z : TableEntry}
    (hstdio : t.stdio = .redirect stdin stdout stderr) (hin : s.entries stdin = some x)
    (hout : s.entries stdout = some y) (herr : s.entries stderr = some z) (hout0 : stdout ≠ 0)
    (herr0 : stderr ≠ 0) (herr1 : stderr ≠ 1) :
    World.tables.Meets (.onExec (· = s.installed stdin stdout stderr x y z)) t.main s := by
  have hend (u : Table) : World.tables.Meets (.onExec (· = s.installed stdin stdout stderr x y z))
      (Program.ask (.exit Limits.execFailureStatus)) u := by
    exact fun v _ => ⟨nofun, fun a => nomatch a⟩
  have hreport (call : String) (e : Errno) (u : Table) :
      World.tables.Meets (.onExec (· = s.installed stdin stdout stderr x y z))
        ((t.report call e).bind fun _ => Program.ask (.exit Limits.execFailureStatus)) u := by
    apply (World.meets_bind _ _ _).mpr
    exact (t.report_makes (fun _ _ => ⟨trivial, nofun⟩) call e).quiet
      (fun _ _ h _ _ hc => (h _ _ hc).elim) (fun _ => hend u) (fun _ => trivial) trivial
  apply (World.meets_bind _ _ _).mpr
  refine (t.resetDispositions_makes fun _ _ => ⟨trivial, nofun⟩).quiet
    (fun _ _ h _ _ hc => (h _ _ hc).elim) (fun _ => ?_) (fun _ => trivial) trivial
  refine (World.meets_call_bind _ _ _).mpr fun u hu => ⟨nofun, fun mask v hv => ?_⟩
  obtain rfl := (World.others_alone _).mp hu
  obtain rfl : v = u := hv
  rw [hstdio]
  apply (World.meets_bind _ _ _).mpr
  refine ChildStdio.wire_meets World.tables_setsUp hin hout herr hout0 herr0 herr1 ?_ ?_ ?_
  · rintro _ _ h _ _ rfl
    exact h.elim
  · exact fun _ f u => hreport f.1 f.2 u
  · intro u hu
    obtain rfl := (World.others_alone _).mp hu
    exact ⟨fun _ _ _ => rfl, fun e u _ => hreport _ e u⟩

end ChildTask

end OwnedHandles
