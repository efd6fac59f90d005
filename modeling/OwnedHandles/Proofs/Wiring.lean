import OwnedHandles.Proofs.Table

namespace OwnedHandles

namespace Table

def wired (given : Fd → Option Bool) (stdin stdout stderr : Origin) : Fd → Option Origin
  | 0 => some stdin
  | 1 => some stdout
  | 2 => some stderr
  | n => if given n = some false then some (.earlier n) else none

/-- The table has come from `before given` by adding entries that the next image does not get. -/
def AddedTo (given : Fd → Option Bool) (s : Table) : Prop :=
  ∀ n, s.entries n = (before given).entries n ∨
    given n = none ∧ ∃ e, s.entries n = some e ∧ e.closeOnExec = true

variable {given : Fd → Option Bool} {s : Table}

theorem AddedTo.before : AddedTo given (before given) := fun _ => .inl rfl

theorem AddedTo.free (h : s.AddedTo given) {n : Fd} (hn : s.entries n = none) : given n = none := by
  rcases h n with heq | ⟨hfree, _⟩
  · rw [hn] at heq
    simpa [Table.before] using heq.symm
  · exact hfree

theorem AddedTo.given_none (h : s.AddedTo given) {n : Fd} {e : TableEntry}
    (hn : s.entries n = some e) (hnew : ∀ m, e.origin ≠ .earlier m) : given n = none := by
  rcases h n with heq | ⟨hfree, _⟩
  · exact absurd (heq ▸ hn) (before_entries_ne hnew)
  · exact hfree

theorem AddedTo.image (h : s.AddedTo given) (n : Fd) :
    s.image n = if given n = some false then some (.earlier n) else none := by
  rcases h n with heq | ⟨hfree, e, he, hclose⟩
  · cases hgiven : given n with
    | none => simp [Table.image, heq, Table.before, hgiven]
    | some b => cases b <;> simp [Table.image, heq, Table.before, hgiven]
  · obtain ⟨origin, closeOnExec⟩ := e
    obtain rfl : closeOnExec = true := hclose
    simp [Table.image, he, hfree]

theorem AddedTo.addPipe (h : s.AddedTo given) {r w : Fd} (hr : s.entries r = none)
    (hw : s.entries w = none) : (s.addPipe r w).AddedTo given := by
  intro n
  by_cases hnw : n = w
  · exact .inr ⟨hnw ▸ h.free hw, ⟨.pipe s.pipes .write, true⟩, by simp [hnw], rfl⟩
  by_cases hnr : n = r
  · exact .inr ⟨hnr ▸ h.free hr, ⟨.pipe s.pipes .read, true⟩, by simp [hnr ▸ hnw, hnr], rfl⟩
  · simpa [hnw, hnr] using h n

theorem AddedTo.addFile (h : s.AddedTo given) {fd : Fd} (hfd : s.entries fd = none)
    (path : Bytes) : (s.addFile fd path true).AddedTo given := by
  intro n
  by_cases hn : n = fd
  · exact .inr ⟨hn ▸ h.free hfd, ⟨.opened s.openings path, true⟩, by simp [hn], rfl⟩
  · simpa [hn] using h n

theorem AddedTo.installed_image (h : s.AddedTo given) {stdin stdout stderr : Fd}
    {x y z : TableEntry} (hin : given stdin = none) (hout : given stdout = none)
    (herr : given stderr = none) :
    (s.installed stdin stdout stderr x y z).image = wired given x.origin y.origin z.origin := by
  funext n
  match n with
  | 0 => simp [Table.image, installed, wired]
  | 1 => simp [Table.image, installed, wired]
  | 2 => simp [Table.image, installed, wired]
  | n + 3 =>
    have himage := h.image (n + 3)
    by_cases hsource : n + 3 = stdin ∨ n + 3 = stdout ∨ n + 3 = stderr
    · have hgiven : given (n + 3) = none := by
        rcases hsource with heq | heq | heq <;> rw [heq] <;> assumption
      simp [Table.image, installed, wired, hsource, hgiven]
    · change _ = if given (n + 3) = some false then some (Origin.earlier (n + 3)) else none
      rw [← himage]
      simp [Table.image, installed, hsource]

end Table

namespace Table

def HoldsNoWriteEnd (s : Table) : Prop :=
  ∀ n k closeOnExec, s.entries n ≠ some ⟨.pipe k .write, closeOnExec⟩

structure PipeNumbers where
  stdin : Nat
  stdout : Nat
  stderr : Nat
  feed : Nat
  output : Nat
  error : Nat

structure Piped (given : Fd → Option Bool) (n : PipeNumbers) (child parent : StreamEnds)
    (s : Table) : Prop where
  added : s.AddedTo given
  stdin_fd : child.stdin.fd = some n.stdin
  stdout_fd : child.stdout.fd = some n.stdout
  stderr_fd : child.stderr.fd = some n.stderr
  feed_fd : parent.stdin.fd = some n.feed
  output_fd : parent.stdout.fd = some n.output
  error_fd : parent.stderr.fd = some n.error
  increasing : n.stdin < n.feed ∧ n.feed < n.output ∧ n.output < n.stdout ∧ n.stdout < n.error ∧
    n.error < n.stderr
  table_eq : s = (((before given).addPipe n.stdin n.feed).addPipe n.output n.stdout).addPipe
    n.error n.stderr

end Table

/-- A child that is started here has its streams on open numbers and becomes its program with them
wired, and a wait made here is made without any write end. -/
def Call.WellTimed (given : Fd → Option Bool) (stdin stdout stderr : Origin) (s : Table) :
    Call → Prop
  | .fork task => (∀ fd ∈ task.stdio.numbers, s.entries fd ≠ none) ∧
      World.tables.Meets (.onExec fun t => t.image = Table.wired given stdin stdout stderr)
        task.main s
  | .wait _ => s.HoldsNoWriteEnd
  | _ => True

/-- A child that is started on three of the added entries wires them up. The numbers of its output
streams are high enough not to be hit before they are copied. -/
theorem Table.AddedTo.child_wired {given : Fd → Option Bool} {s : Table} (h : s.AddedTo given)
    {task : ChildTask} {i o e : Nat} {x y z : Origin} (hstdio : task.stdio = .redirect i o e)
    (hin : s.entries i = some ⟨x, true⟩) (hout : s.entries o = some ⟨y, true⟩)
    (herr : s.entries e = some ⟨z, true⟩) (hx : ∀ m, x ≠ .earlier m) (hy : ∀ m, y ≠ .earlier m)
    (hz : ∀ m, z ≠ .earlier m) (ho : 0 < o) (he : 1 < e) :
    (Call.fork task).WellTimed given x y z s := by
  have hnumbers : o ≠ 0 ∧ e ≠ 0 ∧ e ≠ 1 := by omega
  constructor
  · simp [hstdio, ChildStdio.numbers, hin, hout, herr]
  · refine (ChildTask.main_meets hstdio hin hout herr hnumbers.1 hnumbers.2.1 hnumbers.2.2).weaken
      (fun t c ht args env hc => ?_) (fun _ _ h => h) (fun _ _ h => h) (fun _ h => h)
    rw [ht args env hc]
    exact h.installed_image (h.given_none hin hx) (h.given_none hout hy) (h.given_none herr hz)

theorem Call.SparesChildren.wellTimed {given : Fd → Option Bool} {stdin stdout stderr : Origin}
    {s : Table} {c : Call} (hc : c.SparesChildren) : c.WellTimed given stdin stdout stderr s := by
  cases c <;> first | exact hc.elim | trivial

def Contract.launching {α : Type} (given : Fd → Option Bool) (stdin stdout stderr : Origin)
    (P : α → Table → Prop) : Contract Table (Except Failure α) where
  calls := Call.WellTimed given stdin stdout stderr
  returns r t := ∀ a, r = .ok a → P a t
  breaks _ _ := True
  givesUp _ := True

namespace Contract.launching

variable {α β : Type} {given : Fd → Option Bool} {stdin stdout stderr : Origin} {s : Table}
  {P : α → Table → Prop} {Q : β → Table → Prop}

theorem done {r : Except Failure α} (h : ∀ a, r = .ok a → P a s) :
    World.tables.Meets (launching given stdin stdout stderr P) (.done r) s := by
  intro t ht
  obtain rfl := (World.others_alone _).mp ht
  exact h

theorem ofExcept {r : Except Failure α} (h : ∀ a, r = .ok a → P a s) :
    World.tables.Meets (launching given stdin stdout stderr P)
      (MonadExcept.ofExcept r : Action α).run s := by
  rw [Action.run_ofExcept]
  exact done h

theorem bind {p : Action α} {f : α → Action β}
    (hp : World.tables.Meets (launching given stdin stdout stderr P) p.run s)
    (hf : ∀ a t, P a t → World.tables.Meets (launching given stdin stdout stderr Q) (f a).run t) :
    World.tables.Meets (launching given stdin stdout stderr Q) (p >>= f).run s :=
  asking.bind hp hf

theorem onLeave {p : Action α} {fin : Program Unit}
    (hp : World.tables.Meets (launching given stdin stdout stderr P) p.run s)
    (hfin : fin.Makes Call.SparesChildren) :
    World.tables.Meets (launching given stdin stdout stderr P) (p.onLeave fin).run s :=
  asking.onLeave hp hfin (fun _ _ hc => hc.wellTimed) fun _ _ _ h ho =>
    (World.others_alone _).mp ho ▸ h

theorem keeping {p : Action α}
    (hp : p.run.Makes fun c => c.KeepsEntries ∧ c.SparesChildren) (h : ∀ a, P a s) :
    World.tables.Meets (launching given stdin stdout stderr P) p.run s :=
  hp.meets (fun _ ht => (World.others_alone _).mp ht) (fun _ _ _ hc ha => hc.1.frame ha)
    (fun _ hc => hc.2.wellTimed) (fun _ a _ => h a) (fun _ => trivial) trivial

theorem sparing {p : Action α} (hp : p.run.Makes Call.SparesChildren) (h : ∀ a t, P a t) :
    World.tables.Meets (launching given stdin stdout stderr P) p.run s :=
  asking.making hp (fun _ _ hc => hc.wellTimed) h

end Contract.launching

section Pipes

open Contract (launching)

variable {given : Fd → Option Bool} {stdin stdout stderr : Origin} {s : Table}

theorem PipeEnds.openNamed_tables (stream : String) :
    World.tables.Meets (launching given stdin stdout stderr fun p t =>
      ∃ r w, p.read.fd = some r ∧ p.write.fd = some w ∧ s.AreLowest r w ∧ t = s.addPipe r w)
      (PipeEnds.openNamed stream).run s := by
  refine (World.meets_ask_bind _ _ _).mpr fun t ht => ⟨trivial, fun a u ha => ?_⟩
  obtain rfl := (World.others_alone _).mp ht
  cases a with
  | error e => exact launching.done nofun
  | ok ends =>
    obtain ⟨hlow, rfl⟩ := ha
    apply launching.done
    intro p hp
    obtain rfl := Except.ok.inj hp
    exact ⟨ends.1, ends.2, rfl, rfl, hlow, rfl⟩

theorem Table.Piped.of_areLowest {first second third : PipeEnds} {n : PipeNumbers}
    (hstdin : first.read.fd = some n.stdin) (hfeed : first.write.fd = some n.feed)
    (houtput : second.read.fd = some n.output) (hstdout : second.write.fd = some n.stdout)
    (herror : third.read.fd = some n.error) (hstderr : third.write.fd = some n.stderr)
    (hfirst : (before given).AreLowest n.stdin n.feed)
    (hsecond : ((before given).addPipe n.stdin n.feed).AreLowest n.output n.stdout)
    (hthird : (((before given).addPipe n.stdin n.feed).addPipe n.output n.stdout).AreLowest
      n.error n.stderr) :
    ((((before given).addPipe n.stdin n.feed).addPipe n.output n.stdout).addPipe n.error
      n.stderr).Piped given n ⟨first.read, second.write, third.write⟩
      ⟨first.write, second.read, third.read⟩ where
  added := ((AddedTo.before.addPipe hfirst.1.1 hfirst.free).addPipe hsecond.1.1
    hsecond.free).addPipe hthird.1.1 hthird.free
  stdin_fd := hstdin
  stdout_fd := hstdout
  stderr_fd := hstderr
  feed_fd := hfeed
  output_fd := houtput
  error_fd := herror
  increasing := ⟨hfirst.lt, hfirst.lt_next hsecond.1, hsecond.lt, hsecond.lt_next hthird.1,
    hthird.lt⟩
  table_eq := rfl

theorem StreamEnds.openPipes_tables :
    World.tables.Meets (launching given stdin stdout stderr fun ends t =>
      ∃ n, t.Piped given n ends.1 ends.2) StreamEnds.openPipes.run (Table.before given) := by
  apply launching.bind (PipeEnds.openNamed_tables "stdin")
  intro first t ht
  obtain ⟨i, wi, hi, hwi, hlow, rfl⟩ := ht
  apply launching.bind (launching.onLeave (PipeEnds.openNamed_tables "stdout")
    (first.drop_makes fun _ => trivial))
  intro second t ht
  obtain ⟨ro, o, hro, ho, hlow', rfl⟩ := ht
  apply launching.bind (launching.onLeave (PipeEnds.openNamed_tables "stderr")
    ((second.drop_makes fun _ => trivial).bind fun _ => first.drop_makes fun _ => trivial))
  intro third t ht
  obtain ⟨re, e, hre, he, hlow'', rfl⟩ := ht
  apply launching.done
  intro ends hends
  obtain rfl := Except.ok.inj hends
  exact ⟨⟨i, o, e, wi, ro, re⟩, .of_areLowest hi hwi hro ho hre he hlow hlow' hlow''⟩

theorem ChildStdio.ofDescriptors_ok {a b c : Descriptor} {i o e : Fd} (ha : a.fd = some i)
    (hb : b.fd = some o) (hc : c.fd = some e) :
    ChildStdio.ofDescriptors a b c = .ok (.redirect i o e) := by
  simp [ofDescriptors, descriptorFor, ha, hb, hc, bind, Except.bind, pure, Except.pure]

namespace Table.Piped

variable {n : PipeNumbers} {child parent : StreamEnds}

theorem entries (h : s.Piped given n child parent) :
    s.entries n.stdin = some ⟨.pipe 0 .read, true⟩ ∧
      s.entries n.stdout = some ⟨.pipe 1 .write, true⟩ ∧
      s.entries n.stderr = some ⟨.pipe 2 .write, true⟩ ∧
      s.entries n.output = some ⟨.pipe 1 .read, true⟩ ∧
      s.entries n.error = some ⟨.pipe 2 .read, true⟩ := by
  have hincreasing := h.increasing
  rw [h.table_eq]
  refine ⟨?_, ?_, ?_, ?_, ?_⟩ <;> grind [addPipe_entries, addPipe_pipes, before]

theorem stdio_ok (h : s.Piped given n child parent) :
    child.stdio = .ok (.redirect n.stdin n.stdout n.stderr) :=
  ChildStdio.ofDescriptors_ok h.stdin_fd h.stdout_fd h.stderr_fd

theorem child_wired (h : s.Piped given n child parent) {task : ChildTask}
    (hstdio : child.stdio = .ok task.stdio) : (Call.fork task).WellTimed given (.pipe 0 .read)
      (.pipe 1 .write) (.pipe 2 .write) s := by
  obtain ⟨hin, hout, herr, -⟩ := h.entries
  have hincreasing := h.increasing
  have htask : task.stdio = .redirect n.stdin n.stdout n.stderr :=
    Except.ok.inj (hstdio.symm.trans h.stdio_ok)
  exact h.added.child_wired htask hin hout herr nofun nofun nofun (by omega) (by omega)

theorem write_end (h : s.Piped given n child parent) {m k : Nat} {closeOnExec : Bool}
    (hm : s.entries m = some ⟨.pipe k .write, closeOnExec⟩) :
    m = n.stdout ∨ m = n.stderr ∨ m = n.feed := by
  have hbefore : (Table.before given).entries m ≠ some ⟨.pipe k .write, closeOnExec⟩ :=
    before_entries_ne nofun
  rw [h.table_eq] at hm
  grind [addPipe_entries]

theorem last_write_end (h : s.Piped given n child parent) {m k : Nat} {closeOnExec : Bool}
    (hm : (((s.remove n.stdin).remove n.stdout).remove n.stderr).entries m =
      some ⟨.pipe k .write, closeOnExec⟩) : m = n.feed := by
  have hne : m ≠ n.stdin ∧ m ≠ n.stdout ∧ m ≠ n.stderr := by
    refine ⟨?_, ?_, ?_⟩ <;> rintro rfl <;> simp at hm
  have hmem : s.entries m = some ⟨.pipe k .write, closeOnExec⟩ := by
    simpa [hne] using hm
  rcases h.write_end hmem with heq | heq | heq
  · exact absurd heq hne.2.1
  · exact absurd heq hne.2.2
  · exact heq

end Table.Piped

theorem Table.holdsNoWriteEnd_remove {wi : Fd} (h : ∀ n k closeOnExec,
    s.entries n = some ⟨.pipe k .write, closeOnExec⟩ → n = wi) : (s.remove wi).HoldsNoWriteEnd := by
  intro n k closeOnExec hn
  by_cases heq : n = wi
  · simp [heq] at hn
  · exact heq (h n k closeOnExec (by simpa [heq] using hn))

structure Table.ReadsOn (s : Table) (ro re : Fd) : Prop where
  stdout : s.entries ro = some ⟨.pipe 1 .read, true⟩
  stderr : s.entries re = some ⟨.pipe 2 .read, true⟩

namespace Table.ReadsOn

variable {s : Table} {ro re fd : Fd}

theorem of_remove (h : (s.remove fd).ReadsOn ro re) : s.ReadsOn ro re := by
  obtain ⟨hout, herr⟩ := h
  rw [remove_entries] at hout herr
  constructor
  · split at hout
    · cases hout
    · exact hout
  · split at herr
    · cases herr
    · exact herr

end Table.ReadsOn

theorem Table.Piped.readsOn {given : Fd → Option Bool} {n : PipeNumbers} {child parent : StreamEnds}
    {s : Table} (h : s.Piped given n child parent) :
    ((((s.remove n.stdin).remove n.stdout).remove n.stderr).remove n.feed).ReadsOn n.output
      n.error := by
  obtain ⟨-, -, -, houtput, herror⟩ := h.entries
  have hincreasing := h.increasing
  have houtput' : n.output ≠ n.stdin ∧ n.output ≠ n.stdout ∧ n.output ≠ n.stderr ∧
      n.output ≠ n.feed := by omega
  have herror' : n.error ≠ n.stdin ∧ n.error ≠ n.stdout ∧ n.error ≠ n.stderr ∧
      n.error ≠ n.feed := by omega
  constructor
  · simpa [houtput'] using houtput
  · simpa [herror'] using herror

/-- The parent of a started capture: it reads from both pipes, and it can write to nothing but the
feed of the child. -/
def Table.Feeds (table : Table) (parent : StreamEnds) : Prop :=
  ∃ wi ro re, parent.stdin.fd = some wi ∧ parent.stdout.fd = some ro ∧
    parent.stderr.fd = some re ∧ (table.remove wi).ReadsOn ro re ∧
    (table.remove wi).HoldsNoWriteEnd

theorem Table.Piped.feeds {n : PipeNumbers} {child parent : StreamEnds}
    (h : s.Piped given n child parent) :
    (((s.remove n.stdin).remove n.stdout).remove n.stderr).Feeds parent :=
  ⟨n.feed, n.output, n.error, h.feed_fd, h.output_fd, h.error_fd, h.readsOn,
    Table.holdsNoWriteEnd_remove fun _ _ _ hm => h.last_write_end hm⟩

end Pipes

section Parent

open Contract (launching)

variable {given : Fd → Option Bool} {stdin stdout stderr : Origin} {s : Table}

theorem Call.keeps_and_spares_setMask (m : SignalMask) :
    (Call.setMask m).KeepsEntries ∧ (Call.setMask m).SparesChildren := ⟨trivial, trivial⟩

theorem LaunchPlan.fork_tables (p : LaunchPlan) {stdio : ChildStdio}
    (hchild : ∀ task : ChildTask, task.stdio = stdio →
      (Call.fork task).WellTimed given stdin stdout stderr s) :
    World.tables.Meets (launching given stdin stdout stderr fun _ t => t = s)
      (p.fork stdio false).run s := by
  apply launching.bind (launching.keeping (P := fun _ t => t = s)
    (BlockedSignals.blockAll_makes Call.keeps_and_spares_setMask) fun _ => rfl)
  intro b t ht
  subst ht
  apply (World.meets_ask_bind _ _ _).mpr
  intro u hu
  obtain rfl := (World.others_alone _).mp hu
  refine ⟨hchild _ rfl, fun a v ha => ?_⟩
  obtain rfl : v = u := by cases a <;> exact ha
  cases a with
  | error e =>
    refine launching.keeping ?_ fun _ => rfl
    exact Action.makes_bind (Action.makes_lift (b.drop_makes Call.keeps_and_spares_setMask))
      fun _ => trivial
  | ok pid =>
    refine launching.keeping ?_ fun _ => rfl
    exact Action.makes_bind
      (Action.makes_lift (b.restoreLogged_makes Call.keeps_and_spares_setMask)) fun _ => trivial

theorem Descriptor.closeSafe_tables {d : Descriptor} {fd : Fd} {q : Contract Table Descriptor}
    (hd : d.fd = some fd) (hcalls : ∀ t fd, q.calls t (.close fd))
    (hreturns : ∀ d', q.returns d' (s.remove fd)) : World.tables.Meets q d.closeSafe s := by
  unfold closeSafe close
  simp only [hd, Program.bind_eq, Program.ask_bind, Program.call_bind]
  intro t ht
  obtain rfl := (World.others_alone _).mp ht
  refine ⟨hcalls _ _, fun a u ha => ?_⟩
  obtain rfl : u = t.remove fd := ha
  cases a with
  | ok _ =>
    intro v hv
    exact (World.others_alone _).mp hv ▸ hreturns _
  | error e =>
    intro v hv
    exact (World.others_alone _).mp hv ▸ hreturns _

theorem Descriptor.drop_tables {d : Descriptor} {fd : Fd} {q : Contract Table Descriptor}
    (hd : d.fd = some fd) (hcalls : ∀ t fd, q.calls t (.close fd))
    (hreturns : ∀ d', q.returns d' (s.remove fd)) : World.tables.Meets q d.drop s := by
  unfold drop
  rw [if_pos (by simp [isOpen, hd])]
  exact closeSafe_tables hd hcalls hreturns

theorem StreamEnds.drop_tables {e : StreamEnds} {a b c : Fd} {q : Contract Table Unit}
    (ha : e.stdin.fd = some a) (hb : e.stdout.fd = some b) (hc : e.stderr.fd = some c)
    (hcalls : ∀ t fd, q.calls t (.close fd))
    (hreturns : q.returns () (((s.remove a).remove b).remove c)) :
    World.tables.Meets q e.drop s := by
  refine (World.meets_bind _ _ _).mpr (Descriptor.drop_tables ha hcalls fun _ => ?_)
  refine (World.meets_bind _ _ _).mpr (Descriptor.drop_tables hb hcalls fun _ => ?_)
  refine (World.meets_bind _ _ _).mpr (Descriptor.drop_tables hc hcalls fun _ t ht => ?_)
  exact (World.others_alone _).mp ht ▸ hreturns

theorem Executable.startOnPipes_tables (plan : LaunchPlan) :
    World.tables.Meets (launching given (.pipe 0 .read) (.pipe 1 .write) (.pipe 2 .write)
      fun started t => t.Feeds started.2)
      (Executable.startOnPipes plan).run (Table.before given) := by
  apply launching.bind StreamEnds.openPipes_tables
  intro ends t ht
  obtain ⟨child, parent⟩ := ends
  obtain ⟨n, hpiped⟩ := ht
  have hleave : (parent.drop.bind fun _ => child.drop).Makes Call.SparesChildren :=
    (parent.drop_makes fun _ => trivial).bind fun _ => child.drop_makes fun _ => trivial
  apply launching.bind (launching.onLeave (launching.ofExcept (P := fun stdio u =>
    u = t ∧ child.stdio = .ok stdio) fun stdio h => ⟨rfl, h⟩) hleave)
  intro stdio u hu
  obtain ⟨rfl, hstdio⟩ := hu
  apply launching.bind (launching.onLeave (plan.fork_tables fun task htask =>
    hpiped.child_wired (htask ▸ hstdio)) hleave)
  intro process v hv
  subst hv
  refine (World.meets_lift_bind _ _ _).mpr (StreamEnds.drop_tables hpiped.stdin_fd hpiped.stdout_fd
    hpiped.stderr_fd (fun _ _ => trivial) (launching.done fun started hstarted => ?_))
  obtain rfl := Except.ok.inj hstarted
  exact hpiped.feeds

theorem ProcessHandle.join_tables (p : ProcessHandle) (self : Pid) (hs : s.HoldsNoWriteEnd) :
    World.tables.Meets (.launching given stdin stdout stderr fun _ _ => True)
      (p.join self false).run s := by
  unfold join
  split
  · exact fun _ _ => trivial
  · refine (World.meets_ask_bind _ _ _).mpr fun t ht => ⟨?_, fun a u _ => ?_⟩
    · exact (World.others_alone _).mp ht ▸ hs
    · refine launching.sparing ?_ fun _ _ => trivial
      cases a with
      | error e => trivial
      | ok status => exact Action.makes_bind trivial fun _ => Action.makes_ofExcept _

theorem Executable.capture_tables (e : Executable) (self : Pid) (params : List Bytes)
    (env : Option Environment) (rounds : Nat) :
    World.tables.Meets (launching given (.pipe 0 .read) (.pipe 1 .write) (.pipe 2 .write)
      fun _ _ => True) (e.capture self params env rounds).run (Table.before given) := by
  apply launching.bind (launching.ofExcept (P := fun _ t => t = Table.before given)
    fun _ _ => rfl)
  intro plan t ht
  subst ht
  apply launching.bind (startOnPipes_tables plan)
  intro started t ht
  obtain ⟨process, parent⟩ := started
  obtain ⟨wi, _, _, hwi, -, -, -, hnone⟩ := ht
  refine (World.meets_lift_bind _ _ _).mpr (Descriptor.closeSafe_tables hwi
    (fun _ _ => trivial) fun stdin => ?_)
  let rest : StreamEnds := { parent with stdin }
  have hdrop : rest.drop.Makes Call.SparesChildren := rest.drop_makes fun _ => trivial
  refine Contract.asking.attempt (process.join_tables self hnone) hdrop
    (fun _ _ hc => Call.SparesChildren.wellTimed hc) fun ending u _ => ?_
  exact launching.sparing (drain_conclude_makes (fun _ => trivial) (fun _ _ => trivial) rest rounds
    plan process ending) fun _ _ => trivial

theorem Descriptor.setExactMode_tables (d : Descriptor) (fd : Fd) (perm : Mode) :
    World.tables.Meets (launching given stdin stdout stderr fun _ t => t = s)
      (d.setExactMode fd perm).run s := by
  refine (World.meets_ask_bind _ _ _).mpr fun t ht => ⟨trivial, fun a u ha => ?_⟩
  obtain rfl := (World.others_alone _).mp ht
  obtain rfl : u = t := by cases a <;> exact ha
  cases a with
  | ok _ => exact launching.done fun _ _ => rfl
  | error e =>
    refine (World.meets_lift_bind _ _ _).mpr ((d.drop_makes fun _ => trivial).meets_calls
      (fun _ _ hc => Call.SparesChildren.wellTimed hc) (fun _ u => launching.done nofun)
      (fun _ _ => trivial) fun _ => trivial)

theorem Descriptor.openFile_tables (file : File) (flags : OpenFlags) (perm : Mode) :
    World.tables.Meets (launching given stdin stdout stderr fun d t => ∃ fd, d.fd = some fd ∧
      s.IsLowest fd ∧ t = s.addFile fd file.path (flags.has .closeOnExec))
      (openFile file flags perm).run s := by
  refine (World.meets_ask_bind _ _ _).mpr fun t ht => ⟨trivial, fun kind u hu => ?_⟩
  obtain rfl := (World.others_alone _).mp ht
  obtain rfl : u = t := hu
  refine (World.meets_ask_bind _ _ _).mpr fun t ht => ⟨trivial, fun a v ha => ?_⟩
  obtain rfl := (World.others_alone _).mp ht
  cases a with
  | error e => exact (World.meets_log_bind _ _ _).mpr (launching.done nofun)
  | ok fd =>
    obtain ⟨hlow, rfl⟩ := ha
    have hdone : World.tables.Meets (launching given stdin stdout stderr fun d v =>
        ∃ n, d.fd = some n ∧ t.IsLowest n ∧ v = t.addFile n file.path (flags.has .closeOnExec))
        (do
          Action.log ((owning fd file.name).notice fd "descriptor opened")
          return owning fd file.name : Action Descriptor).run
        (t.addFile fd file.path (flags.has .closeOnExec)) := by
      refine (World.meets_log_bind _ _ _).mpr (launching.done fun d hd => ?_)
      obtain rfl := Except.ok.inj hd
      exact ⟨fd, rfl, hlow, rfl⟩
    apply (World.meets_log_bind _ _ _).mpr
    split
    · apply launching.bind (setExactMode_tables _ fd perm)
      intro _ v hv
      subst hv
      exact hdone
    · exact hdone

def Table.withFiles (given : Fd → Option Bool) (input output error : File) (a b c : Fd) : Table :=
  (((before given).addFile a input.path true).addFile b output.path true).addFile c error.path true

theorem Table.withFiles_wired {input output error : File} {a b c : Nat}
    (ha : (before given).IsLowest a)
    (hb : ((before given).addFile a input.path true).IsLowest b)
    (hc : (((before given).addFile a input.path true).addFile b output.path true).IsLowest c)
    {task : ChildTask} (hstdio : task.stdio = .redirect a b c) :
    (Call.fork task).WellTimed given (.opened 0 input.path) (.opened 1 output.path)
      (.opened 2 error.path) (withFiles given input output error a b c) := by
  have hab : a < b := ha.lt hb
  have hbc : b < c := hb.lt hc
  have hadded : (withFiles given input output error a b c).AddedTo given :=
    ((AddedTo.before.addFile ha.1 _).addFile hb.1 _).addFile hc.1 _
  have hin : (withFiles given input output error a b c).entries a =
      some ⟨.opened 0 input.path, true⟩ := by
    grind [addFile_entries, before, withFiles]
  have hout : (withFiles given input output error a b c).entries b =
      some ⟨.opened 1 output.path, true⟩ := by
    grind [addFile_entries, addFile_openings, before, withFiles]
  have herr : (withFiles given input output error a b c).entries c =
      some ⟨.opened 2 error.path, true⟩ := by
    grind [addFile_entries, addFile_openings, before, withFiles]
  exact hadded.child_wired hstdio hin hout herr nofun nofun nofun (by omega) (by omega)

theorem Executable.redirect_tables (e : Executable) (params : List Bytes)
    (env : Option Environment) (input output error : File) (perm : Mode) :
    World.tables.Meets (launching given (.opened 0 input.path) (.opened 1 output.path)
      (.opened 2 error.path) fun _ _ => True)
      (e.redirect params env input output error perm).run (Table.before given) := by
  apply launching.bind (launching.ofExcept (P := fun _ t => t = Table.before given)
    fun _ _ => rfl)
  intro plan t ht
  subst ht
  apply launching.bind (Descriptor.openFile_tables input reading perm)
  intro stdin t ht
  obtain ⟨a, ha, hlow, rfl⟩ := ht
  apply launching.bind (launching.onLeave (Descriptor.openFile_tables output writing perm)
    (Descriptor.dropAll_makes (fun _ => trivial) _))
  intro stdout t ht
  obtain ⟨b, hb, hlow', rfl⟩ := ht
  apply launching.bind (launching.onLeave (Descriptor.openFile_tables error writing perm)
    (Descriptor.dropAll_makes (fun _ => trivial) _))
  intro stderr t ht
  obtain ⟨c, hc, hlow'', rfl⟩ := ht
  have hleave : (Descriptor.dropAll [stderr, stdout, stdin]).Makes Call.SparesChildren :=
    Descriptor.dropAll_makes (fun _ => trivial) _
  refine launching.bind (launching.onLeave (launching.ofExcept (P := fun stdio t =>
    t = Table.withFiles given input output error a b c ∧ stdio = .redirect a b c)
    fun stdio h => ⟨rfl, ?_⟩) hleave) fun stdio t ht => ?_
  · exact Except.ok.inj (h.symm.trans (ChildStdio.ofDescriptors_ok ha hb hc))
  obtain ⟨rfl, rfl⟩ := ht
  apply launching.bind (launching.onLeave (plan.fork_tables fun task htask =>
    Table.withFiles_wired hlow hlow' hlow'' htask) hleave)
  intro process t _
  refine launching.sparing ?_ fun _ _ => trivial
  exact Action.makes_bind (Action.makes_lift (Descriptor.dropAll_makes (fun _ => trivial) _))
    fun _ => trivial

end Parent

end OwnedHandles
