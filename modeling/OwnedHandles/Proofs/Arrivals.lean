import Mathlib.Data.Finset.Basic
import OwnedHandles.Proofs.Signals

/-!
Signals that reach a child before it has become its program. A child is started with everything
blocked. From the moment in which it puts the mask of its parent back it is open to what its parent
is open to, and calls the handlers of its parent, except for the few signals that it has put back to
the default before.
-/

namespace OwnedHandles

def Signal.Catchable (n : Nat) : Prop :=
  0 < n ∧ n ≤ 64 ∧ n ≠ SIGKILL.number ∧ n ≠ SIGSTOP.number

theorem SignalMask.full_holds {n : Nat} (hn : Signal.Catchable n) :
    full.settable.holds n = true := by
  obtain ⟨hpos, hle, hkill, hstop⟩ := hn
  have hall : ∀ n < 65, 0 < n → n ≠ Signal.SIGKILL.number → n ≠ Signal.SIGSTOP.number →
      full.settable.holds n = true := by decide
  exact hall n (Nat.lt_succ_of_le hle) hpos hkill hstop

def Disposition.isHandled : Disposition → Bool
  | .handled _ => true
  | _ => false

namespace SignalState

def Catches (s : SignalState) (n : Nat) : Prop :=
  Signal.Catchable n ∧ s.mask.holds n = false ∧ (s.dispositions n).isHandled = true

def BlocksAll (s : SignalState) : Prop := s.mask = SignalMask.full.settable

def handling (n : Nat) : SignalState :=
  ⟨SignalMask.none, Dispositions.set (fun _ => .byDefault) n (.handled 0), by decide⟩

variable {s : SignalState} {m n : Nat}

theorem BlocksAll.not_catches (hs : s.BlocksAll) : ¬s.Catches n := by
  rintro ⟨hn, hopen, -⟩
  rw [hs, SignalMask.full_holds hn] at hopen
  cases hopen

theorem BlocksAll.withDisposition {d : Disposition} (hs : s.BlocksAll) :
    (s.withDisposition n d).BlocksAll := hs

theorem blocksAll_atFork (s : SignalState) (detached : Bool) : (s.atFork detached).BlocksAll := rfl

theorem Catches.of_withDefault (h : (s.withDisposition n .byDefault).Catches m) :
    s.Catches m := by
  obtain ⟨hm, hopen, hhandled⟩ := h
  refine ⟨hm, hopen, ?_⟩
  by_cases hmn : m = n
  · simp [SignalState.withDisposition, hmn, Disposition.isHandled] at hhandled
  · simpa [SignalState.withDisposition, hmn] using hhandled

theorem forChild_catches (s : SignalState) (detached : Bool) (n : Nat) :
    (s.forChild detached).Catches n ↔ s.Catches n ∧ n ≠ Signal.SIGTERM.number ∧
      n ≠ Signal.SIGINT.number ∧ ¬(detached = true ∧ n = Signal.SIGCHLD.number) := by
  by_cases hreset : n = Signal.SIGTERM.number ∨ n = Signal.SIGINT.number ∨
      (detached = true ∧ n = Signal.SIGCHLD.number)
  · have hdefault : (s.forChild detached).dispositions n = .byDefault := if_pos hreset
    simp only [Catches, hdefault, Disposition.isHandled]
    grind
  · have hkept : (s.forChild detached).dispositions n = s.dispositions n := if_neg hreset
    have hmask : (s.forChild detached).mask = s.mask := rfl
    simp only [Catches, hkept, hmask]
    grind

end SignalState

structure Arriving where
  signals : SignalState
  pending : Finset Nat
  handled : List Nat

namespace Arriving

def start (s : SignalState) : Arriving := ⟨s, ∅, []⟩

/-- A signal arrives, or one that is not blocked is delivered. It calls its handler, which may have
been meant for one call only; where there is none it is gone. If it ends the process, the run just
does not go on. -/
inductive Arrival : Arriving → Arriving → Prop
  | arrives {s : Arriving} (n : Nat) : Arrival s { s with pending := insert n s.pending }
  | caught {s : Arriving} {n : Nat} : n ∈ s.pending → s.signals.Catches n →
      Arrival s ⟨s.signals, s.pending.erase n, n :: s.handled⟩
  | caughtOnce {s : Arriving} {n : Nat} : n ∈ s.pending → s.signals.Catches n →
      Arrival s ⟨s.signals.withDisposition n .byDefault, s.pending.erase n, n :: s.handled⟩
  | uncaught {s : Arriving} {n : Nat} : n ∈ s.pending → s.signals.mask.holds n = false →
      ¬s.signals.Catches n → Arrival s { s with pending := s.pending.erase n }

structure Only (E : Nat → Prop) (s : Arriving) : Prop where
  catches : ∀ n, s.signals.Catches n → E n
  handled : ∀ n ∈ s.handled, E n

variable {E : Nat → Prop} {s t : Arriving}

theorem Only.arrival (hs : s.Only E) (h : Arrival s t) : t.Only E := by
  cases h with
  | arrives n => exact ⟨hs.catches, hs.handled⟩
  | caught _ hcatches =>
    exact ⟨hs.catches, List.forall_mem_cons.mpr ⟨hs.catches _ hcatches, hs.handled⟩⟩
  | caughtOnce _ hcatches =>
    exact ⟨fun m hm => hs.catches m hm.of_withDefault,
      List.forall_mem_cons.mpr ⟨hs.catches _ hcatches, hs.handled⟩⟩
  | uncaught _ _ _ => exact ⟨hs.catches, hs.handled⟩

theorem Arrival.of_blocksAll (h : Arrival s t) (hs : s.signals.BlocksAll) :
    t.signals = s.signals ∧ t.handled = s.handled := by
  cases h with
  | arrives n => exact ⟨rfl, rfl⟩
  | caught _ hcatches | caughtOnce _ hcatches => exact (hs.not_catches hcatches).elim
  | uncaught _ _ _ => exact ⟨rfl, rfl⟩

end Arriving

def World.arriving : World Arriving where
  answers s c a t :=
    c.changesSignals s.signals a t.signals ∧ t.pending = s.pending ∧ t.handled = s.handled
  moves := Arriving.Arrival

namespace ChildTask

open Contract (always)
open Arriving (Only)

variable {α : Type} {E : Nat → Prop} {t : ChildTask} {parent x : SignalState} {s : Arriving}

theorem call_only {c : Call} {next : c.Answer → Program α} (hs : s.signals = x)
    (hblocked : x.BlocksAll) (hhandled : ∀ n ∈ s.handled, E n)
    (hnext : ∀ a u, c.changesSignals x a u.signals → (∀ n ∈ u.handled, E n) →
      World.arriving.Meets (always (Only E)) (next a) u) :
    World.arriving.Meets (always (Only E)) (.call c next) s := by
  intro v hv
  obtain ⟨hx, hvhandled⟩ : v.signals = x ∧ v.handled = s.handled := by
    refine hv.keeps (P := fun v => v.signals = x ∧ v.handled = s.handled) (fun w w' hm hw => ?_)
      ⟨hs, rfl⟩
    have hw' := Arriving.Arrival.of_blocksAll hm (hw.1 ▸ hblocked)
    exact ⟨hw'.1.trans hw.1, hw'.2.trans hw.2⟩
  have hE : ∀ n ∈ v.handled, E n := hvhandled ▸ hhandled
  refine ⟨⟨fun n hn => ((hx ▸ hblocked).not_catches hn).elim, hE⟩, fun a u ha => ?_⟩
  exact hnext a u (hx ▸ ha.1) (ha.2.2 ▸ hE)

theorem setDisposition_only {n : Nat} {next : Except Errno Unit → Program α} (hs : s.signals = x)
    (hblocked : x.BlocksAll) (hhandled : ∀ n ∈ s.handled, E n)
    (hnext : ∀ u : Arriving, u.signals = x.withDisposition n .byDefault → (∀ n ∈ u.handled, E n) →
      World.arriving.Meets (always (Only E)) (next (.ok ())) u) :
    World.arriving.Meets (always (Only E)) (.call (.setDisposition n .byDefault) next) s := by
  refine call_only hs hblocked hhandled fun a u ha hu => ?_
  cases a with
  | ok _ => exact hnext u ha hu
  | error e => exact (ha.1 rfl).elim

theorem become_only (hs : s.Only E) : World.arriving.Meets (always (Only E)) t.become s := by
  have hmakes : t.become.Makes Call.KeepsSignals := become_makes (fun _ _ h _ => h) trivial
  refine hmakes.meets_always (fun _ _ hm h => h.arrival hm) (fun s c a u hc ha h => ?_) hs
  have hsignals : u.signals = s.signals := hc.frame ha.1
  exact ⟨hsignals ▸ h.catches, ha.2.2 ▸ h.handled⟩

theorem setMask_only (hmask : t.mask = parent.mask) (hs : s.signals = x) (hblocked : x.BlocksAll)
    (hhandled : ∀ n ∈ s.handled, E n) (hE : ∀ n, (x.withMask parent.mask).Catches n → E n) :
    World.arriving.Meets (always (Only E)) (.call (.setMask t.mask) fun _ => t.become) s := by
  refine call_only hs hblocked hhandled fun a u ha hu => become_only ⟨?_, hu⟩
  cases a with
  | ok old =>
    have hu : u.signals = x.withMask parent.mask := hmask ▸ ha.2
    exact hu ▸ hE
  | error e => exact (parent.mask_ne_full (hmask ▸ ha.1)).elim

theorem main_only (hmask : t.mask = parent.mask) (hs : s.signals = parent.atFork t.detached)
    (hhandled : ∀ n ∈ s.handled, E n) (hE : ∀ n, (parent.forChild t.detached).Catches n → E n) :
    World.arriving.Meets (always (Only E)) t.main s := by
  rw [main_eq]
  have hblocked := parent.blocksAll_atFork t.detached
  rw [← parent.atFork_withDefaults t.detached] at hE
  refine setDisposition_only hs hblocked hhandled fun u hu hhandled =>
    setDisposition_only hu hblocked.withDisposition hhandled fun v hv hhandled => ?_
  cases hdetached : t.detached with
  | false =>
    simp only [hdetached, SignalState.withDefaults] at hE hv ⊢
    exact setMask_only hmask hv hblocked hhandled hE
  | true =>
    simp only [hdetached, SignalState.withDefaults, if_true] at hE hv ⊢
    exact setDisposition_only hv hblocked hhandled fun w hw hhandled =>
      setMask_only hmask hw hblocked hhandled hE

end ChildTask

theorem Arriving.reaches_start {α : Type} {p p' : Program α} {s t : SignalState}
    (h : World.signals.Reaches (p, s) (p', t)) :
    World.arriving.Reaches (p, .start s) (p', .start t) := by
  refine h.lift (fun c : Program α × SignalState => (c.1, start c.2)) fun _ _ hstep => ?_
  cases hstep with
  | note => exact .note
  | call ha => exact .call ⟨ha, rfl, rfl⟩
  | others hm => exact hm.elim

namespace LaunchPlan

/-- A state in which a child that this launch starts may be, up to its program or its exit. -/
def ChildIn (p : LaunchPlan) (stdio : ChildStdio) (detached : Bool) (s : SignalState)
    (u : Arriving) : Prop :=
  ∃ task next t c, World.signals.Reaches ((p.fork stdio detached).run, s)
      (.call (.fork task) next, t) ∧ World.arriving.Reaches (task.main, .start t) (c, u)

variable {p : LaunchPlan} {stdio : ChildStdio} {detached : Bool} {s : SignalState} {u : Arriving}
  {n : Nat}

theorem ChildIn.only (h : p.ChildIn stdio detached s u) :
    u.Only (s.forChild detached).Catches := by
  obtain ⟨task, next, t, c, hfork, hchild⟩ := h
  obtain ⟨hmask, rfl, rfl⟩ := (p.fork_forking (s := s) stdio detached).calls hfork task rfl
  exact (ChildTask.main_only (s := .start _) hmask rfl nofun fun _ h => h).always hchild

theorem childIn_of_moves (p : LaunchPlan) (stdio : ChildStdio) (detached : Bool) (s : SignalState)
    (h : World.arriving.Others (.start (s.forChild detached)) u) :
    p.ChildIn stdio detached s u := by
  obtain ⟨next, hfork⟩ := p.fork_calls_fork stdio detached s
  let task : ChildTask := ⟨p, stdio, detached, s.mask⟩
  have hbecome : World.signals.Reaches (task.main, s.atFork detached)
      (task.become, s.forChild detached) := ChildTask.main_reaches_become rfl
  exact ⟨task, next, _, _, hfork, (Arriving.reaches_start hbecome).trans (h.reaches _)⟩

theorem exists_childIn_catches (p : LaunchPlan) (stdio : ChildStdio)
    (h : (s.forChild detached).Catches n) :
    ∃ u, p.ChildIn stdio detached s u ∧ u.signals.Catches n :=
  ⟨_, p.childIn_of_moves stdio detached s (.refl _ _), h⟩

theorem exists_childIn_handled (p : LaunchPlan) (stdio : ChildStdio)
    (h : (s.forChild detached).Catches n) :
    ∃ u, p.ChildIn stdio detached s u ∧ n ∈ u.handled := by
  have hcalled : World.arriving.Others (.start (s.forChild detached))
      ⟨s.forChild detached, (insert n ∅ : Finset Nat).erase n, [n]⟩ :=
    .head (.arrives n) (.single (.caught (Finset.mem_insert_self n ∅) h))
  exact ⟨_, p.childIn_of_moves stdio detached s hcalled, List.mem_cons_self⟩

/-- A child is open to a handler of its parent, and may come to call it before it has become its
program, exactly if the signal would call the handler in the parent and is not one of those for
which a child goes back to the default: to be terminated, to be interrupted and, if it is detached,
to be told about children of its own. -/
theorem child_calls_handler_iff (p : LaunchPlan) (stdio : ChildStdio) (detached : Bool)
    (s : SignalState) (n : Nat) :
    ((∃ u, p.ChildIn stdio detached s u ∧ u.signals.Catches n) ↔
      s.Catches n ∧ n ≠ Signal.SIGTERM.number ∧ n ≠ Signal.SIGINT.number ∧
        ¬(detached = true ∧ n = Signal.SIGCHLD.number)) ∧
    ((∃ u, p.ChildIn stdio detached s u ∧ n ∈ u.handled) ↔
      s.Catches n ∧ n ≠ Signal.SIGTERM.number ∧ n ≠ Signal.SIGINT.number ∧
        ¬(detached = true ∧ n = Signal.SIGCHLD.number)) := by
  rw [← s.forChild_catches detached n]
  refine ⟨⟨?_, p.exists_childIn_catches stdio⟩, ⟨?_, p.exists_childIn_handled stdio⟩⟩
  · rintro ⟨u, hu, hn⟩
    exact hu.only.catches n hn
  · rintro ⟨u, hu, hn⟩
    exact hu.only.handled n hn

/-- A child of a process with a handler for a signal of its own choice, and nothing blocked, calls
that handler before it has become a shell. -/
theorem user_handler_called_in_child : ∃ plan u,
    LaunchPlan.make Executable.shell.program [] none = .ok plan ∧
      plan.ChildIn .inherit false (.handling Signal.SIGUSR1.number) u ∧
      Signal.SIGUSR1.number ∈ u.handled := by
  obtain ⟨plan, hplan⟩ := Executable.shell_plan
  have hopen : ((SignalState.handling Signal.SIGUSR1.number).forChild false).Catches
      Signal.SIGUSR1.number :=
    (SignalState.forChild_catches _ false _).mpr ⟨⟨by unfold Signal.Catchable; decide, rfl, rfl⟩,
      by decide, by decide, nofun⟩
  obtain ⟨u, hu, hhandled⟩ := plan.exists_childIn_handled .inherit hopen
  exact ⟨plan, u, hplan, hu, hhandled⟩

end LaunchPlan

end OwnedHandles
