import OwnedHandles.Proofs.Launches
import OwnedHandles.Proofs.Leaks
import OwnedHandles.Proofs.Runs
import OwnedHandles.Proofs.Threads

/-!
Launches side by side with each other and with code that starts programs of its own. What a launch
opens is closed on exec from the moment it is there. No program starts with it but that of the
launch's own child. A child of another launch has it up to its own program, or to its end if it
does not become that.
-/

namespace OwnedHandles

/-- A descriptor, with the launch that has opened what it refers to, if one has. -/
structure SharedEntry (ι : Type) where
  opener : Option ι
  closeOnExec : Bool

abbrev SharedTable (ι : Type) := Fd → Option (SharedEntry ι)

namespace SharedTable

variable {ι : Type}

def before (given : Fd → Option Bool) : SharedTable ι :=
  fun fd => (given fd).map fun closeOnExec => ⟨none, closeOnExec⟩

def put (s : SharedTable ι) (fd : Fd) (e : SharedEntry ι) : SharedTable ι :=
  fun n => if n = fd then some e else s n

def remove (s : SharedTable ι) (fd : Fd) : SharedTable ι := fun n => if n = fd then none else s n

def Owns (s : SharedTable ι) (i : ι) (fd : Fd) : Prop :=
  ∃ closeOnExec, s fd = some ⟨some i, closeOnExec⟩

def Foreign (s : SharedTable ι) (fd : Fd) : Prop := ∀ i, ¬s.Owns i fd

/-- Other code of the process does as it likes with what no launch has opened. -/
def ChangesForeign (s t : SharedTable ι) : Prop := ∀ fd, t fd = s fd ∨ s.Foreign fd ∧ t.Foreign fd

/-- A process that other code has started may also close what it has of launches, or put something
else on the number. -/
def KeepsAtMost (s t : SharedTable ι) : Prop := ∀ fd, t fd = s fd ∨ t.Foreign fd

/-- A program that starts with these descriptors has one of the launch. -/
def Exposes (s : SharedTable ι) (i : ι) : Prop := ∃ fd, s fd = some ⟨some i, false⟩

@[simp] theorem put_apply (s : SharedTable ι) (fd n : Fd) (e : SharedEntry ι) :
    s.put fd e n = if n = fd then some e else s n := rfl

@[simp] theorem remove_apply (s : SharedTable ι) (fd n : Fd) :
    s.remove fd n = if n = fd then none else s n := rfl

variable {s t u : SharedTable ι} {i j : ι} {fd n : Fd}

theorem owns_put {e : SharedEntry ι} :
    (s.put fd e).Owns i n ↔ n = fd ∧ e.opener = some i ∨ n ≠ fd ∧ s.Owns i n := by
  obtain ⟨opener, closeOnExec⟩ := e
  by_cases hn : n = fd
  · simp [Owns, hn]
  · simp [Owns, hn]

theorem owns_remove : (s.remove fd).Owns i n ↔ n ≠ fd ∧ s.Owns i n := by
  by_cases hn : n = fd
  · simp [Owns, hn]
  · simp [Owns, hn]

theorem not_owns_of_free (h : s fd = none) : ¬s.Owns i fd := by
  simp [Owns, h]

theorem Owns.unique (h : s.Owns i fd) (h' : s.Owns j fd) : i = j := by
  obtain ⟨b, hb⟩ := h
  obtain ⟨b', hb'⟩ := h'
  have heq : i = j ∧ b = b' := by simpa using hb.symm.trans hb'
  exact heq.1

theorem not_owns_before (given : Fd → Option Bool) : ¬(before given).Owns i fd := by
  simp [Owns, before]

theorem ChangesForeign.owns (h : s.ChangesForeign t) : t.Owns i fd ↔ s.Owns i fd := by
  obtain heq | ⟨hs, ht⟩ := h fd
  · simp [Owns, heq]
  · exact ⟨fun ho => (ht i ho).elim, fun ho => (hs i ho).elim⟩

end SharedTable

/-- What a call of a launch does to the descriptors of the process. A new number is one that was
free, a standard one or not. The ends of a pipe are closed on exec, a file if it is opened so. -/
def Call.sharesTable {ι : Type} (i : ι) (s : SharedTable ι) :
    (c : Call) → c.Answer → SharedTable ι → Prop
  | .openFile _ flags _, .ok fd, t => s fd = none ∧ t = s.put fd ⟨some i, flags.has .closeOnExec⟩
  | .makePipe, .ok (r, w), t => s r = none ∧ s w = none ∧ r ≠ w ∧
      t = (s.put r ⟨some i, true⟩).put w ⟨some i, true⟩
  | .duplicate fd target, .ok _, t => ∃ e, s fd = some e ∧
      t = if fd = target then s else s.put target { e with closeOnExec := false }
  | .setCloseOnExec fd on, .ok _, t => ∃ e, s fd = some e ∧
      t = s.put fd { e with closeOnExec := on }
  | .close fd, _, t => t = s.remove fd
  | _, _, t => t = s

def SharedTable.Counts {ι : Type} (i : ι) (s : SharedTable ι) (own : Finset Fd) : Prop :=
  ∀ n, n ∈ own ↔ s.Owns i n

section Answers

open SharedTable

variable {ι : Type} {i j : ι} {s t : SharedTable ι} {c : Call} {a : c.Answer} {own : Finset Fd}

theorem Call.sharesTable_counts (h : c.sharesTable i s a t) (hown : Counts i s own)
    (hc : c.KeepsPrivate) : ∃ own', c.changesTable own a own' ∧ Counts i t own' := by
  have hfree {fd : Fd} (hfd : s fd = none) : fd ∉ own :=
    fun h => not_owns_of_free hfd ((hown fd).mp h)
  cases c with
  | openFile path flags mode =>
    cases a with
    | error e => exact ⟨own, rfl, h ▸ hown⟩
    | ok fd =>
      obtain ⟨hfd, rfl⟩ := h
      refine ⟨insert fd own, ⟨hfree hfd, rfl⟩, fun n => ?_⟩
      rw [owns_put, Finset.mem_insert, hown n]
      grind
  | makePipe =>
    cases a with
    | error e => exact ⟨own, rfl, h ▸ hown⟩
    | ok ends =>
      obtain ⟨hr, hw, hne, rfl⟩ := h
      refine ⟨insert ends.2 (insert ends.1 own), ⟨hfree hr, hfree hw, hne, rfl⟩, fun n => ?_⟩
      rw [owns_put, owns_put, Finset.mem_insert, Finset.mem_insert, hown n]
      grind
  | close fd =>
    obtain rfl := h
    refine ⟨own.erase fd, rfl, fun n => ?_⟩
    rw [owns_remove, Finset.mem_erase, hown n]
  | duplicate fd target => exact hc.elim
  | setCloseOnExec fd on => exact hc.elim
  | _ => exact ⟨own, rfl, h ▸ hown⟩

inductive SharedTable.Change (i : ι) (takes : List Fd) (s : SharedTable ι) : SharedTable ι → Prop
  | none : Change i takes s s
  | opening {fd : Fd} : s fd = .none → Change i takes s (s.put fd ⟨some i, true⟩)
  | piping {r w : Fd} : s r = .none → s w = .none →
      Change i takes s ((s.put r ⟨some i, true⟩).put w ⟨some i, true⟩)
  | closing {fd : Fd} : fd ∈ takes → Change i takes s (s.remove fd)

theorem Call.sharesTable_change (h : c.sharesTable i s a t) (hc : c.KeepsPrivate) :
    s.Change i c.takes t := by
  cases c with
  | openFile path flags mode =>
    cases a with
    | error e => exact h ▸ .none
    | ok fd =>
      obtain ⟨hfd, rfl⟩ := h
      have hflags : flags.has .closeOnExec = true := hc
      exact hflags ▸ .opening hfd
  | makePipe =>
    cases a with
    | error e => exact h ▸ .none
    | ok ends =>
      obtain ⟨hr, hw, -, rfl⟩ := h
      exact .piping hr hw
  | close fd =>
    obtain rfl := h
    exact .closing List.mem_cons_self
  | duplicate fd target => exact hc.elim
  | setCloseOnExec fd on => exact hc.elim
  | _ => exact h ▸ .none

theorem SharedTable.Change.owns {takes : List Fd} (h : s.Change j takes t) (hij : j ≠ i)
    (htakes : ∀ fd ∈ takes, s.Owns j fd) (n : Fd) : t.Owns i n ↔ s.Owns i n := by
  cases h with
  | none => rfl
  | opening hfd =>
    rw [owns_put]
    grind [not_owns_of_free]
  | piping hr hw =>
    rw [owns_put, owns_put]
    grind [not_owns_of_free]
  | @closing fd hfd =>
    have hother : ¬s.Owns i fd := fun h => hij ((htakes fd hfd).unique h)
    rw [owns_remove]
    exact and_iff_right_of_imp fun h heq => hother (heq ▸ h)

end Answers

def Contract.withinOwn : Contract (Finset Fd) (Except Failure Unit) :=
  (passing ∅ (Action.left (fun _ => []) []) []).withCalls fun _ c => c.KeepsPrivate

def Contract.keepingTo {ι : Type} (i : ι) : Contract (SharedTable ι) (Except Failure Unit) :=
  withinOwn.along (SharedTable.Counts i)

def Threads.launches {ι : Type} : Threads ι (SharedTable ι) :=
  ⟨Call.sharesTable, SharedTable.ChangesForeign⟩

namespace Launch

theorem action_passes (l : Launch) : l.action.Passes [] (fun _ => []) [] := by
  have hpure : (pure () : Action Unit).Passes [] (fun _ => []) [] :=
    Action.passes_pure (fun _ => []) ()
  cases l with
  | start e params env => exact (e.start_passes params env).bind fun _ => hpure
  | startAndForget e params => exact (e.startAndForget_passes params).bind fun _ => hpure
  | capture e self params env rounds =>
    exact (e.capture_passes self params env rounds).bind fun _ => hpure
  | redirect e params env input output error perm =>
    exact (e.redirect_passes params env input output error perm).bind fun _ => hpure

theorem action_keepsPrivate (l : Launch) : l.action.run.Makes Call.KeepsPrivate :=
  (Program.compositional_makes fun _ hc => hc.keepsPrivate).launch l fun _ _ _ =>
    LaunchPlan.fork_makes (fun _ => trivial) (fun _ => trivial) fun _ _ _ => trivial

end Launch

section Threads

open Contract (keepingTo)

variable {ι : Type} {i : ι} {s t : SharedTable ι} {c : Call}

theorem Contract.takes_of_keepingTo (h : (keepingTo i).calls s c) :
    (∀ fd ∈ c.takes, s.Owns i fd) ∧ c.KeepsPrivate := by
  obtain ⟨own, hown, htakes, hc⟩ := h
  exact ⟨fun fd hfd => (hown fd).mp (htakes fd hfd).1, hc⟩

theorem Threads.launches_refines (i : ι) :
    (launches.world (fun j => (keepingTo j).calls) i).Refines World.descriptors
      (SharedTable.Counts i) Contract.withinOwn.calls where
  moves hR hm := by
    -- neither other code nor another launch changes what this one owns
    refine ⟨_, World.Others.refl _ _, fun n => (hR n).trans ?_⟩
    obtain hother | ⟨j, hij, c, a, hc, ha⟩ := hm
    · exact hother.owns.symm
    · obtain ⟨htakes, hkeeps⟩ := Contract.takes_of_keepingTo hc
      exact ((Call.sharesTable_change ha hkeeps).owns hij htakes n).symm
  answers hR hc ha := Call.sharesTable_counts ha hR hc.2

theorem Threads.launches_meet (ls : ι → Launch) (given : Fd → Option Bool) :
    launches.Meet keepingTo (fun i => (ls i).action.run, .before given) := by
  intro i
  have hpasses := (ls i).action_passes ∅ ∅ (Holds.nil.mpr rfl)
  have hkeeps : World.descriptors.Meets (.asking (fun _ c => c.KeepsPrivate) fun _ _ => True)
      (ls i).action.run ∅ :=
    Contract.asking.making (ls i).action_keepsPrivate (fun _ _ hc => hc) fun _ _ => trivial
  have hnone : SharedTable.Counts i (.before given) ∅ := fun n =>
    ⟨fun h => (Finset.notMem_empty n h).elim, fun h => (SharedTable.not_owns_before given h).elim⟩
  exact (hpasses.withCalls hkeeps).refine (launches_refines i) hnone

end Threads

namespace SharedTable

variable {ι : Type} {i : ι} {s t : SharedTable ι} {fd : Fd} {fds : List Fd} {e : SharedEntry ι}

def Private (s : SharedTable ι) : Prop := ∀ i fd, s.Owns i fd → s fd = some ⟨some i, true⟩

theorem Private.not_exposes (hs : s.Private) (i : ι) : ¬s.Exposes i := by
  rintro ⟨fd, hfd⟩
  have hclosed := hs i fd ⟨false, hfd⟩
  simp [hfd] at hclosed

theorem Private.put (hs : s.Private) (he : e.closeOnExec = true) : (s.put fd e).Private := by
  intro i n hn
  obtain ⟨opener, closeOnExec⟩ := e
  obtain rfl := he
  obtain ⟨rfl, rfl⟩ | ⟨hne, hn⟩ := owns_put.mp hn
  · simp
  · simpa [hne] using hs i n hn

theorem Private.remove (hs : s.Private) : (s.remove fd).Private := by
  intro i n hn
  obtain ⟨hne, hn⟩ := owns_remove.mp hn
  simpa [hne] using hs i n hn

theorem Private.change {takes : List Fd} (hs : s.Private) (h : s.Change i takes t) :
    t.Private := by
  cases h with
  | none => exact hs
  | opening _ => exact hs.put rfl
  | piping _ _ => exact (hs.put rfl).put rfl
  | closing _ => exact hs.remove

theorem Private.keepsAtMost (hs : s.Private) (ht : s.KeepsAtMost t) : t.Private := by
  intro i fd hfd
  obtain heq | hforeign := ht fd
  · have hs' : s.Owns i fd := by simpa [Owns, heq] using hfd
    rw [heq]
    exact hs i fd hs'
  · exact (hforeign i hfd).elim

theorem ChangesForeign.keepsAtMost (h : s.ChangesForeign t) : s.KeepsAtMost t :=
  fun fd => (h fd).imp_right And.right

structure SparesOthers (i : ι) (fds : List Fd) (s : SharedTable ι) : Prop where
  closed : ∀ j ≠ i, ∀ fd, s.Owns j fd → s fd = some ⟨some j, true⟩
  sources : ∀ j ≠ i, ∀ fd ∈ fds, ¬s.Owns j fd

theorem Private.sparesOthers (hs : s.Private) (hfds : ∀ fd ∈ fds, s.Owns i fd) :
    s.SparesOthers i fds :=
  ⟨fun j _ => hs j, fun _ hj fd hfd h => hj (h.unique (hfds fd hfd))⟩

namespace SparesOthers

theorem put (hs : s.SparesOthers i fds) (he : ∀ j ≠ i, e.opener ≠ some j) :
    (s.put fd e).SparesOthers i fds := by
  constructor
  · intro j hj n hn
    obtain ⟨-, hopener⟩ | ⟨hne, hn⟩ := owns_put.mp hn
    · exact (he j hj hopener).elim
    · simpa [hne] using hs.closed j hj n hn
  · intro j hj n hmem hn
    obtain ⟨-, hopener⟩ | ⟨-, hn⟩ := owns_put.mp hn
    · exact he j hj hopener
    · exact hs.sources j hj n hmem hn

theorem remove (hs : s.SparesOthers i fds) : (s.remove fd).SparesOthers i fds := by
  constructor
  · intro j hj n hn
    obtain ⟨hne, hn⟩ := owns_remove.mp hn
    simpa [hne] using hs.closed j hj n hn
  · intro j hj n hmem hn
    exact hs.sources j hj n hmem (owns_remove.mp hn).2

theorem answer {c : Call} {a : c.Answer} (hs : s.SparesOthers i fds) (hc : c.CopiesFrom fds)
    (ha : c.sharesTable i s a t) : t.SparesOthers i fds := by
  have hown {b : Bool} : ∀ j ≠ i, (⟨some i, b⟩ : SharedEntry ι).opener ≠ some j :=
    fun j hj h => hj (Option.some.inj h).symm
  have hsource {fd : Fd} {e : SharedEntry ι} (hfd : fd ∈ fds) (he : s fd = some e) :
      ∀ j ≠ i, e.opener ≠ some j :=
    fun j hj hopener => hs.sources j hj fd hfd ⟨e.closeOnExec, by rw [he, ← hopener]⟩
  cases c with
  | openFile path flags mode =>
    cases a with
    | error e => exact ha ▸ hs
    | ok fd =>
      obtain ⟨-, rfl⟩ := ha
      exact hs.put hown
  | makePipe =>
    cases a with
    | error e => exact ha ▸ hs
    | ok ends =>
      obtain ⟨-, -, -, rfl⟩ := ha
      exact (hs.put hown).put hown
  | duplicate fd target =>
    cases a with
    | error e => exact ha ▸ hs
    | ok _ =>
      obtain ⟨e, he, rfl⟩ := ha
      split
      · exact hs
      · have hopener := hsource hc he
        exact hs.put hopener
  | setCloseOnExec fd on =>
    cases a with
    | error e => exact ha ▸ hs
    | ok _ =>
      obtain ⟨e, he, rfl⟩ := ha
      have hopener := hsource hc he
      exact hs.put hopener
  | close fd =>
    obtain rfl := ha
    exact hs.remove
  | _ => exact ha ▸ hs

theorem eq_of_exposes {j : ι} (hs : s.SparesOthers i fds) (h : s.Exposes j) : j = i := by
  by_contra hj
  obtain ⟨fd, hfd⟩ := h
  have hclosed := hs.closed j hj fd ⟨false, hfd⟩
  simp [hfd] at hclosed

end SparesOthers

end SharedTable

section Runs

open SharedTable

variable {ι : Type} {i : ι} {s t : SharedTable ι}

theorem ChildTask.main_sparesOthers {task : ChildTask} {x : Program Empty × SharedTable ι}
    (hs : s.SparesOthers i task.stdio.numbers)
    (hx : (World.alone (Call.sharesTable i)).Reaches (task.main, s) x) :
    x.2.SparesOthers i task.stdio.numbers := by
  have hmakes : task.main.Makes (Call.CopiesFrom task.stdio.numbers) :=
    main_makes (fun _ _ hc => hc) trivial
  have hmeets : (World.alone (Call.sharesTable i)).Meets
      (.always fun u => u.SparesOthers i task.stdio.numbers) task.main s :=
    hmakes.meets_always (fun _ _ => False.elim) (fun _ _ _ _ hc ha h => h.answer hc ha) hs
  exact hmeets.always hx

variable [DecidableEq ι]

theorem Threads.launches_private {ls : ι → Launch} {given : Fd → Option Bool}
    {x : (ι → Program (Except Failure Unit)) × SharedTable ι}
    (hx : launches.Reaches (fun i => (ls i).action.run, .before given) x) : x.2.Private := by
  have hbefore : (before given : SharedTable ι).Private :=
    fun _ _ h => (not_owns_before given h).elim
  exact (launches_meet ls given).keeps (fun _ _ ho h => h.keepsAtMost ho.keepsAtMost)
    (fun _ _ _ _ _ hc ha h =>
      h.change (Call.sharesTable_change ha (Contract.takes_of_keepingTo hc).2)) hx hbefore

/-- Whatever launches run side by side, in whatever order their steps and those of other code
follow each other: what is there of a launch is closed on exec, be its number a standard one or
not. A process that other code starts takes nothing of it along, and neither does the child of
another launch. -/
theorem Launch.handles_stay_private {ls : ι → Launch} {given : Fd → Option Bool}
    {ps : ι → Program (Except Failure Unit)} {s : SharedTable ι}
    (hs : Threads.launches.Reaches (fun i => (ls i).action.run, .before given) (ps, s)) :
    (∀ i fd, s.Owns i fd → s fd = some ⟨some i, true⟩) ∧
    (∀ t, s.KeepsAtMost t → ∀ i, ¬t.Exposes i) ∧
    ∀ i task next, ps i = .call (.fork task) next → ∀ p t,
      (World.alone (Call.sharesTable i)).Reaches (task.main, s) (p, t) →
        ∀ j, t.Exposes j → j = i := by
  have hprivate : s.Private := Threads.launches_private hs
  refine ⟨hprivate, fun t ht => (hprivate.keepsAtMost ht).not_exposes, ?_⟩
  intro i task next hfork p t ht j hj
  -- it starts its child on numbers that are still its own
  have hown : ∀ fd ∈ task.stdio.numbers, s.Owns i fd :=
    (Contract.takes_of_keepingTo (((Threads.launches_meet ls given).reaches hs).calls hfork)).1
  exact (ChildTask.main_sparesOthers (hprivate.sparesOthers hown) ht).eq_of_exposes hj

/-- What a parent has while it waits for the child of a capture: its own ends of the pipes. -/
def SharedTable.waiting : SharedTable Bool := fun n =>
  if n ∈ [1, 2, 4] then some ⟨some true, true⟩ else none

/-- A capture that has started its child has not given up its own ends of the pipes yet when other
launches may start theirs. -/
theorem Launch.capture_waits : ∃ next, (World.alone (Call.sharesTable true)).Reaches
    ((capture Executable.shell 1 [] none 1).action.run, .before fun _ => none)
    (.call (.close 1) next, .waiting) := by
  let task : ChildTask :=
    { plan := { arguments := ⟨[Bytes.ofString "/bin/sh"]⟩, environment := none
                commandLine := Bytes.ofString "/bin/sh" }
      stdio := .redirect 0 3 5, detached := false, mask := 0 }
  let answers : List Answered :=
    [⟨.makePipe, .ok (0, 1)⟩, ⟨.makePipe, .ok (2, 3)⟩, ⟨.makePipe, .ok (4, 5)⟩,
      ⟨.setMask .full, .ok 0⟩, ⟨.fork task, .ok 7⟩, ⟨.setMask 0, .ok .full⟩,
      ⟨.close 0, .ok ()⟩, ⟨.close 3, .ok ()⟩, ⟨.close 5, .ok ()⟩]
  have hallowed : (World.alone (Call.sharesTable true)).Allows (.before fun _ => none) answers
      SharedTable.waiting := by
    iterate 3 refine .answer ⟨rfl, rfl, by decide, rfl⟩ ?_
    iterate 5 refine .answer rfl ?_
    refine .answer (funext fun n => ?_) (.nil _)
    simp only [SharedTable.waiting, SharedTable.put, SharedTable.remove, SharedTable.before]
    grind
  exact hallowed.calls (by decide +kernel)

/-- A capture waits with its ends of the pipes, and other code has opened something on 7. Then a
redirection starts its child on 0, 3 and 5: what the child becomes has the files of the redirection,
and the capture keeps its ends to itself. -/
theorem Launch.handles_stay_private_at_once :
    ∃ (ps : Bool → Program (Except Failure Unit)) (s t : SharedTable Bool) (task : ChildTask)
      (next : Except Errno Pid → Program (Except Failure Unit)) (exec : Errno → Program Empty),
      Threads.launches.Reaches (fun i => (bif i
        then capture Executable.shell 1 [] none 1
        else redirect Executable.shell [] none ⟨[]⟩ ⟨[]⟩ ⟨[]⟩ 0).action.run,
        .before fun _ => none) (ps, s) ∧
      ps false = .call (.fork task) next ∧
      (World.alone (Call.sharesTable false)).Reaches (task.main, s)
        (.call (.exec task.plan.arguments none) exec, t) ∧
      s.Owns true 1 ∧ s.Owns false 0 ∧ s 7 = some ⟨none, false⟩ ∧ ¬s.Exposes true ∧
      t.Exposes false ∧ ¬t.Exposes true := by
  let ls (i : Bool) : Launch := bif i then capture Executable.shell 1 [] none 1
    else redirect Executable.shell [] none ⟨[]⟩ ⟨[]⟩ ⟨[]⟩ 0
  let opening : List Answered :=
    [⟨.probe [], some .regular⟩, ⟨.openFile [] Executable.reading 0, .ok 0⟩,
      ⟨.probe [], some .regular⟩, ⟨.openFile [] Executable.writing 0, .ok 3⟩,
      ⟨.probe [], some .regular⟩, ⟨.openFile [] Executable.writing 0, .ok 5⟩,
      ⟨.setMask .full, .ok 0⟩]
  let task : ChildTask :=
    { plan := { arguments := ⟨[Bytes.ofString "/bin/sh"]⟩, environment := none
                commandLine := Bytes.ofString "/bin/sh" }
      stdio := .redirect 0 3 5, detached := false, mask := 0 }
  let wiring : List Answered :=
    [⟨.setDisposition Signal.SIGTERM.number .byDefault, .ok ()⟩,
      ⟨.setDisposition Signal.SIGINT.number .byDefault, .ok ()⟩, ⟨.setMask 0, .ok .full⟩,
      ⟨.setCloseOnExec 0 false, .ok ()⟩, ⟨.duplicate 3 1, .ok ()⟩, ⟨.duplicate 5 2, .ok ()⟩,
      ⟨.close 3, .ok ()⟩, ⟨.close 5, .ok ()⟩]
  let mine (closeOnExec : Bool) : SharedEntry Bool := ⟨some false, closeOnExec⟩
  let others := SharedTable.waiting.put 7 ⟨none, false⟩
  let s := ((others.put 0 (mine true)).put 3 (mine true)).put 5 (mine true)
  let t := ((((s.put 0 (mine false)).put 1 (mine false)).put 2 (mine false)).remove 3).remove 5
  have hopening : ((ls false).action.run.follow opening).bind Program.call? =
      some (.fork task) := by
    decide +kernel
  have hwiring : (task.main.follow wiring).bind Program.call? =
      some (.exec task.plan.arguments none) := by
    decide +kernel
  have hopened : (World.alone (Call.sharesTable false)).Allows others opening s := by
    iterate 3 refine .answer rfl (.answer ⟨rfl, rfl⟩ ?_)
    exact .answer rfl (.nil _)
  have hwired : (World.alone (Call.sharesTable false)).Allows s wiring t := by
    iterate 3 refine .answer rfl ?_
    iterate 3 refine .answer ⟨_, rfl, rfl⟩ ?_
    exact .answer rfl (.answer rfl (.nil _))
  obtain ⟨waiting, hfirst⟩ := capture_waits
  obtain ⟨next, hsecond⟩ := hopened.calls hopening
  obtain ⟨exec, hchild⟩ := hwired.calls hwiring
  have hforeign : SharedTable.waiting.ChangesForeign others := by
    intro fd
    by_cases hfd : fd = 7
    · subst hfd
      exact .inr ⟨by simp [Foreign, Owns, SharedTable.waiting], by simp [Foreign, Owns, others]⟩
    · exact .inl (by simp [others, hfd])
  let ps (i : Bool) : Program (Except Failure Unit) := (ls i).action.run
  let ps' := Function.update ps true (.call (.close 1) waiting)
  have hbefore : Threads.launches.Reaches (ps, .before fun _ => none) (ps', SharedTable.waiting) :=
    .run ps true hfirst
  have hafter : Threads.launches.Reaches (ps', others)
      (Function.update ps' false (.call (.fork task) next), s) := .run ps' false hsecond
  have hreaches := (hbefore.tail (.outside hforeign)).trans hafter
  obtain ⟨-, hforked, hchildren⟩ := handles_stay_private hreaches
  refine ⟨_, s, t, task, next, exec, hreaches, Function.update_self .., hchild, ⟨true, rfl⟩,
    ⟨true, rfl⟩, rfl, hforked s (fun _ => .inl rfl) true, ⟨0, rfl⟩, fun h => ?_⟩
  have heq := hchildren false task next (Function.update_self ..) _ t hchild true h
  exact Bool.noConfusion heq

/-- A capture waits with its ends of the pipes when another launch starts a shell. The child of that
has them as well, and keeps them if it can not become the shell, for as long as it takes to say
so. -/
theorem Launch.child_holds_handle_of_other :
    ∃ (ps : Bool → Program (Except Failure Unit)) (s t : SharedTable Bool) (task : ChildTask)
      (next : Except Errno Pid → Program (Except Failure Unit))
      (report : Except Errno Nat → Program Empty),
      Threads.launches.Reaches (fun i => (bif i
        then capture Executable.shell 1 [] none 1
        else start Executable.shell [] none).action.run, .before fun _ => none) (ps, s) ∧
      ps false = .call (.fork task) next ∧ s.Owns true 1 ∧ s.Owns true 4 ∧
      (World.alone (Call.sharesTable false)).Reaches (task.main, s)
        (.call (.write 2 task.plan.failureNote) report, t) ∧
      t.Owns true 1 ∧ t.Owns true 4 := by
  let ls (i : Bool) : Launch := bif i then capture Executable.shell 1 [] none 1
    else start Executable.shell [] none
  let task : ChildTask :=
    { plan := { arguments := ⟨[Bytes.ofString "/bin/sh"]⟩, environment := none
                commandLine := Bytes.ofString "/bin/sh" }
      stdio := .inherit, detached := false, mask := 0 }
  let failing : List Answered :=
    [⟨.setDisposition Signal.SIGTERM.number .byDefault, .ok ()⟩,
      ⟨.setDisposition Signal.SIGINT.number .byDefault, .ok ()⟩, ⟨.setMask 0, .ok .full⟩,
      ⟨.exec task.plan.arguments none, .ENOENT⟩]
  let s := SharedTable.waiting
  have hforking : ((ls false).action.run.follow [⟨.setMask .full, .ok 0⟩]).bind Program.call? =
      some (.fork task) := by
    decide +kernel
  have hfailing : (task.main.follow failing).bind Program.call? =
      some (.write 2 task.plan.failureNote) := by
    decide +kernel
  have hblocked : (World.alone (Call.sharesTable false)).Allows s [⟨.setMask .full, .ok 0⟩] s :=
    .answer rfl (.nil _)
  have hfailed : (World.alone (Call.sharesTable false)).Allows s failing s := by
    iterate 4 refine .answer rfl ?_
    exact .nil _
  obtain ⟨waiting, hfirst⟩ := capture_waits
  obtain ⟨next, hsecond⟩ := hblocked.calls hforking
  obtain ⟨report, hchild⟩ := hfailed.calls hfailing
  let ps (i : Bool) : Program (Except Failure Unit) := (ls i).action.run
  let ps' := Function.update ps true (.call (.close 1) waiting)
  have hbefore : Threads.launches.Reaches (ps, .before fun _ => none) (ps', s) :=
    .run ps true hfirst
  have hafter : Threads.launches.Reaches (ps', s)
      (Function.update ps' false (.call (.fork task) next), s) := .run ps' false hsecond
  exact ⟨_, s, s, task, next, report, hbefore.trans hafter, Function.update_self .., ⟨true, rfl⟩,
    ⟨true, rfl⟩, hchild, ⟨true, rfl⟩, ⟨true, rfl⟩⟩

end Runs

end OwnedHandles
