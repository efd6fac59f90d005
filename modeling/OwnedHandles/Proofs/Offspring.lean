import Mathlib.Data.Set.Card
import OwnedHandles.Proofs.Inheritance
import OwnedHandles.Proofs.Runs
import OwnedHandles.Proofs.Wiring

namespace OwnedHandles

inductive Death
  | exited (code : Int)
  | signaled (signal : Signal) (core : Bool)
  deriving DecidableEq, Repr

namespace Death

def status (pid : Pid) : Death → WaitStatus
  | exited code => .exited pid code
  | signaled signal core => .signaled pid signal core

def captured (command out err : String) : Death → Except Failure String
  | exited code => if code = 0 then .ok out else .error (.executionFailed command code err)
  | signaled signal _ => .error (.signaled signal.number)

end Death

inductive Fate
  | running
  | kept (e : Death)
  | told (e : Death)
  | discarded (e : Death)
  deriving DecidableEq, Repr

/-- What happens to a child that nobody waits for, while its parent ignores its children from some
time on. -/
inductive Fate.Ages (before after : Bool) : Fate → Fate → Prop
  | same (f : Fate) : Ages before after f f
  | kept (e : Death) : before = false → Ages before after .running (.kept e)
  | discarded (e : Death) : after = true → Ages before after .running (.discarded e)

theorem Fate.Ages.trans {a b c : Bool} {f g h : Fate} (hab : a = true → b = true)
    (hbc : b = true → c = true) (hfg : Ages a b f g) (hgh : Ages b c g h) : Ages a c f h := by
  have hb (h : b = false) : a = false := by
    cases a with
    | false => rfl
    | true => cases h.symm.trans (hab rfl)
  cases hfg with
  | same =>
    cases hgh with
    | same => exact .same f
    | kept e h => exact .kept e (hb h)
    | discarded e h => exact .discarded e h
  | kept e h =>
    cases hgh
    exact .kept e h
  | discarded e h =>
    cases hgh
    exact .discarded e (hbc h)

inductive Deed
  | started (pid : Pid)
  | piped (r w : Fd)
  | closed (fd : Fd)
  | waited (pid : Pid)
  | drained (fd : Fd)
  deriving DecidableEq, Repr

/-- A parent, with what has become of its children, how often reads may still give something or be
interrupted, and what it has done. -/
structure Offspring where
  ignoring : Bool
  fates : Pid → Option Fate
  living : {pid | fates pid = some .running}.Finite
  supply : Nat
  deeds : List Deed

namespace Offspring

def did (s : Offspring) (d : Deed) : Offspring := { s with deeds := s.deeds ++ [d] }

def setFate (s : Offspring) (pid : Pid) (f : Fate) : Offspring :=
  { s with
    fates := Function.update s.fates pid (some f)
    living := (s.living.insert pid).subset fun q hq => by
      by_cases h : q = pid
      · exact .inl h
      · exact .inr (by simpa [h] using hq) }

@[simp] theorem setFate_fates (s : Offspring) (pid : Pid) (f : Fate) :
    (s.setFate pid f).fates = Function.update s.fates pid (some f) := rfl

inductive Move : Offspring → Offspring → Prop
  | ends {s : Offspring} {pid : Pid} (e : Death) : s.fates pid = some .running →
      Move s (s.setFate pid (if s.ignoring then .discarded e else .kept e))

def Tells (s : Offspring) (pid : Pid) (a : Except Errno WaitStatus) (t : Offspring) : Prop :=
  match s.fates pid with
  | some .running => False
  | some (.kept e) => a = .ok (e.status pid) ∧ t = (s.setFate pid (.told e)).did (.waited pid)
  | _ => a = .error .ECHILD ∧ t = s.did (.waited pid)

end Offspring

/-- How the system answers the parent. Waits are for single children and are not interrupted; no
number of a child is given again; a read of a pipe gives a part of what is left, is interrupted, or
finds the end. -/
def Call.raises (self : Pid) (s : Offspring) : (c : Call) → c.Answer → Offspring → Prop
  | .fork _, .ok pid, t => 0 < pid ∧ pid ≠ self ∧ s.fates pid = none ∧
      t = (s.setFate pid .running).did (.started pid)
  | .wait pid, a, t => 0 < pid ∧ s.Tells pid a t
  | .setDisposition n d, .ok _, t => t = { s with
      ignoring := if n = Signal.SIGCHLD.number then decide (d = .ignored) else s.ignoring }
  | .makePipe, .ok (r, w), t => t = s.did (.piped r w)
  | .close fd, _, t => t = s.did (.closed fd)
  | .read fd _, .ok [], t => t = s.did (.drained fd)
  | .read .., .ok (_ :: _), t | .read .., .error .EINTR, t => ∃ n, s.supply = n + 1 ∧
      t = { s with supply := n }
  | .read .., .error _, _ => False
  | _, _, t => t = s

def World.offspring (self : Pid) : World Offspring := ⟨Call.raises self, Offspring.Move⟩

namespace Offspring

variable {s t u : Offspring} {self : Pid}

theorem Move.ncard_lt (h : Move s t) :
    {pid | t.fates pid = some .running}.ncard < {pid | s.fates pid = some .running}.ncard := by
  cases h with
  | @ends pid e hs =>
    refine Set.ncard_lt_ncard ⟨fun q hq => ?_, fun hall => ?_⟩ s.living
    · by_cases h : q = pid
      · exact h ▸ hs
      · simpa [h] using hq
    · have hpid := hall hs
      split at hpid <;> simp at hpid

theorem move_wellFounded : WellFounded fun t s => Move s t :=
  Subrelation.wf (fun h => h.ncard_lt)
    (measure fun s : Offspring => {pid | s.fates pid = some .running}.ncard).wf

structure Onward (s t : Offspring) : Prop where
  ignoring : s.ignoring = true → t.ignoring = true
  supply : t.supply ≤ s.supply
  fates : ∀ pid f, s.fates pid = some f →
    ∃ g, t.fates pid = some g ∧ Fate.Ages s.ignoring t.ignoring f g

theorem Onward.refl (s : Offspring) : s.Onward s :=
  ⟨id, Nat.le_refl _, fun _ f hf => ⟨f, hf, .same f⟩⟩

theorem Onward.trans (hst : s.Onward t) (htu : t.Onward u) : s.Onward u := by
  refine ⟨fun h => htu.ignoring (hst.ignoring h), htu.supply.trans hst.supply, fun pid f hf => ?_⟩
  obtain ⟨g, hg, hfg⟩ := hst.fates pid f hf
  obtain ⟨h, hh, hgh⟩ := htu.fates pid g hg
  exact ⟨h, hh, hfg.trans hst.ignoring htu.ignoring hgh⟩

theorem Onward.unborn (h : s.Onward t) {pid : Pid} (ht : t.fates pid = none) :
    s.fates pid = none := by
  cases hs : s.fates pid with
  | none => rfl
  | some f =>
    obtain ⟨g, hg, -⟩ := h.fates pid f hs
    cases ht.symm.trans hg

/-- A later state, with what was done in between, when nothing was changed about ignoring
children. -/
structure Since (s : Offspring) (deeds : List Deed) (t : Offspring) : Prop extends s.Onward t where
  ignoring_eq : t.ignoring = s.ignoring
  deeds_eq : t.deeds = s.deeds ++ deeds

namespace Since

theorem refl (s : Offspring) : s.Since [] s := ⟨.refl s, rfl, (List.append_nil _).symm⟩

theorem trans {ds es : List Deed} (hst : s.Since ds t) (htu : t.Since es u) :
    s.Since (ds ++ es) u := by
  refine ⟨hst.toOnward.trans htu.toOnward, htu.ignoring_eq.trans hst.ignoring_eq, ?_⟩
  rw [htu.deeds_eq, hst.deeds_eq, List.append_assoc]

theorem of_did (s : Offspring) (d : Deed) : s.Since [d] (s.did d) :=
  ⟨⟨id, Nat.le_refl _, fun _ f hf => ⟨f, hf, .same f⟩⟩, rfl, rfl⟩

theorem of_move (h : Move s t) : s.Since [] t := by
  cases h with
  | @ends pid e hs =>
    refine ⟨⟨id, Nat.le_refl _, fun q f hf => ?_⟩, rfl, (List.append_nil _).symm⟩
    by_cases hq : q = pid
    · subst hq
      obtain rfl := Option.some.inj (hs.symm.trans hf)
      refine ⟨if s.ignoring then .discarded e else .kept e, by simp, ?_⟩
      split
      · exact .discarded e ‹_›
      · exact .kept e (by simpa using ‹¬s.ignoring = true›)
    · exact ⟨f, by simpa [hq] using hf, .same f⟩

theorem others {ds : List Deed} (h : s.Since ds t) (ho : (World.offspring self).Others t u) :
    s.Since ds u := by
  refine ho.keeps (fun t u hm ht => ?_) h
  have hboth := ht.trans (of_move hm)
  rwa [List.append_nil] at hboth

theorem of_spent {n : Nat} (hn : s.supply = n + 1) : s.Since [] { s with supply := n } :=
  ⟨⟨id, hn ▸ Nat.le_succ n, fun _ f hf => ⟨f, hf, .same f⟩⟩, rfl, (List.append_nil _).symm⟩

theorem settled {ds : List Deed} (h : s.Since ds t) {pid : Pid} {f : Fate}
    (hs : s.fates pid = some f) (hf : f ≠ .running) : t.fates pid = some f := by
  obtain ⟨g, hg, hages⟩ := h.fates pid f hs
  cases hages with
  | same => exact hg
  | kept | discarded => exact absurd rfl hf

theorem of_born {pid : Pid} (hs : s.fates pid = none) :
    s.Since [.started pid] ((s.setFate pid .running).did (.started pid)) := by
  refine ⟨⟨id, Nat.le_refl _, fun q f hf => ⟨f, ?_, .same f⟩⟩, rfl, rfl⟩
  have hq : q ≠ pid := by
    rintro rfl
    cases hs.symm.trans hf
  simpa [did, hq] using hf

end Since

def Barren (s t : Offspring) : Prop := ∃ ds, (∀ pid, .started pid ∉ ds) ∧ s.Since ds t

namespace Barren

theorem refl (s : Offspring) : s.Barren s := ⟨[], by simp, .refl s⟩

theorem trans (hst : s.Barren t) (htu : t.Barren u) : s.Barren u := by
  obtain ⟨ds, hds, hst⟩ := hst
  obtain ⟨es, hes, htu⟩ := htu
  refine ⟨ds ++ es, fun pid hpid => ?_, hst.trans htu⟩
  exact (List.mem_append.mp hpid).elim (hds pid) (hes pid)

theorem of_nil (h : s.Since [] t) : s.Barren t := ⟨[], by simp, h⟩

theorem others (h : s.Barren t) (ho : (World.offspring self).Others t u) : s.Barren u :=
  h.trans (of_nil (.others (.refl t) ho))

end Barren

def Awaited (s : Offspring) (pid : Pid) : Prop :=
  ∃ f, s.fates pid = some f ∧ Fate.Ages s.ignoring s.ignoring .running f

theorem Awaited.since {ds : List Deed} {pid : Pid} (h : s.Awaited pid) (hst : s.Since ds t) :
    t.Awaited pid := by
  obtain ⟨f, hf, hages⟩ := h
  obtain ⟨g, hg, hfg⟩ := hst.fates pid f hf
  rw [hst.ignoring_eq] at hfg
  refine ⟨g, hg, ?_⟩
  rw [hst.ignoring_eq]
  exact hages.trans id id hfg

structure Bears (s : Offspring) (own : Pid) (p : ProcessHandle) (t : Offspring) : Prop where
  positive : 0 < p.pid
  other : p.pid ≠ own
  unborn : s.fates p.pid = none
  awaited : t.Awaited p.pid

namespace Bears

variable {p : ProcessHandle} {ds : List Deed}

theorem later (h : s.Bears self p t) (htu : t.Since ds u) : s.Bears self p u :=
  ⟨h.positive, h.other, h.unborn, h.awaited.since htu⟩

theorem before (h : t.Bears self p u) (hst : s.Onward t) : s.Bears self p u :=
  ⟨h.positive, h.other, hst.unborn h.unborn, h.awaited⟩

end Bears

end Offspring

def Call.Calm : Call → Prop
  | .fork _ | .wait _ | .setDisposition .. | .exit _ => False
  | _ => True

def Call.Quiet : Call → Prop
  | .fork _ | .wait _ | .setDisposition .. | .exit _ | .makePipe | .close _ | .read .. => False
  | _ => True

section Calls

variable {self : Pid} {s t : Offspring} {c : Call} {a : c.Answer}

theorem Call.Quiet.frame (hc : c.Quiet) (h : c.raises self s a t) : t = s := by
  cases c <;> first | exact hc.elim | exact h

theorem Call.Quiet.calm (hc : c.Quiet) : c.Calm := by
  cases c <;> first | exact hc.elim | trivial

theorem Call.Calm.cases (hc : c.Calm) (h : c.raises self s a t) :
    (∃ d, (∀ pid, d ≠ .started pid) ∧ t = s.did d) ∨
      (∃ n, s.supply = n + 1 ∧ t = { s with supply := n }) ∨ t = s := by
  cases c with
  | fork | wait | setDisposition | exit => exact hc.elim
  | makePipe =>
    cases a with
    | ok ends => exact .inl ⟨.piped ends.1 ends.2, nofun, h⟩
    | error e => exact .inr (.inr h)
  | close fd => exact .inl ⟨.closed fd, nofun, h⟩
  | read fd count =>
    cases a with
    | ok chunk =>
      cases chunk with
      | nil => exact .inl ⟨.drained fd, nofun, h⟩
      | cons b bs => exact .inr (.inl h)
    | error e =>
      cases e with
      | EINTR => exact .inr (.inl h)
      | _ => exact h.elim
  | _ => exact .inr (.inr h)

theorem Call.Calm.barren (hc : c.Calm) (h : c.raises self s a t) : s.Barren t := by
  obtain ⟨d, hd, rfl⟩ | ⟨n, hn, rfl⟩ | rfl := hc.cases h
  · exact ⟨[d], fun pid hpid => hd pid (List.mem_singleton.mp hpid).symm, .of_did s d⟩
  · exact .of_nil (.of_spent hn)
  · exact .refl t

theorem Call.Calm.canGoOn (hc : c.Calm) : (World.offspring self).CanGoOn s c := by
  cases c with
  | fork | wait | setDisposition | exit => exact hc.elim
  | probe => exact .inl ⟨none, s, rfl⟩
  | pause => exact .inl ⟨(), s, rfl⟩
  | exec => exact .inl ⟨.ENOENT, s, rfl⟩
  | close fd => exact .inl ⟨.ok (), s.did (.closed fd), rfl⟩
  | read fd => exact .inl ⟨.ok [], s.did (.drained fd), rfl⟩
  | _ => exact .inl ⟨.error .EIO, s, rfl⟩

end Calls

theorem Program.Makes.meets_finishing {α σ : Type} {w : World σ} {q : Contract σ α} {I : σ → Prop}
    {P : Call → Prop} {p : Program α} {s : σ} (hp : p.Makes P) (hfin : p.Finishes)
    (hmoves : ∀ s t, w.moves s t → I s → I t)
    (hframe : ∀ s c a t, P c → w.answers s c a t → I s → I t)
    (hcalls : ∀ s c, I s → P c → q.calls s c) (hreturns : ∀ a s, I s → q.returns a s) (hs : I s) :
    w.Meets q p s := by
  induction p generalizing s with
  | done a => exact fun t ht => hreturns a t (ht.keeps hmoves hs)
  | abort m => exact hfin.elim
  | unfinished => exact hfin.elim
  | note e p ih => exact ih hp hfin hs
  | call c next ih =>
    intro t ht
    have hI := ht.keeps hmoves hs
    exact ⟨hcalls t c hI hp.1, fun a u ha => ih a (hp.2 a) (hfin a) (hframe t c a u hp.1 ha hI)⟩

def Contract.raising {α : Type} (self : Pid) (few : Prop) (R : α → Offspring → Prop) :
    Contract Offspring α :=
  ⟨fun s c => (World.offspring self).CanGoOn s c, R, fun _ _ => False, fun _ => few⟩

namespace Contract.raising

variable {α β : Type} {self : Pid} {few : Prop} {s : Offspring}

theorem bind {R : Except Failure α → Offspring → Prop} {Q : Except Failure β → Offspring → Prop}
    {p : Action α} {f : α → Action β}
    (hp : (World.offspring self).Meets (raising self few R) p.run s)
    (hok : ∀ a t, R (.ok a) t → (World.offspring self).Meets (raising self few Q) (f a).run t)
    (herror : ∀ e t, R (.error e) t → Q (.error e) t) :
    (World.offspring self).Meets (raising self few Q) (p >>= f).run s := by
  refine (World.meets_action_bind _ _ _).mpr (hp.settled.returning fun r t ht => ?_)
  cases r with
  | ok a => exact hok a t (ht t (World.Others.refl _ t))
  | error e => exact fun u hu => herror e u (ht u hu)

theorem ofExcept {R : Except Failure α → Offspring → Prop} {r : Except Failure α}
    (h : ∀ t, s.Since [] t → R r t) : (World.offspring self).Meets (raising self few R)
      (MonadExcept.ofExcept r : Action α).run s :=
  (World.meets_ofExcept _ _).mpr fun t ht => h t (.others (.refl s) ht)

theorem onLeave {R : Except Failure α → Offspring → Prop} {p : Action α} {fin : Program Unit}
    (hp : (World.offspring self).Meets (raising self few R) p.run s)
    (hfin : ∀ e t, R (.error e) t →
      (World.offspring self).Meets (raising self few fun _ u => R (.error e) u) fin t) :
    (World.offspring self).Meets (raising self few R) (p.onLeave fin).run s := by
  refine (World.meets_leaving _ _ _ _).mpr (hp.settled.weaken (fun _ _ h => h) (fun r t ht => ?_)
    (fun _ _ h => h.elim) fun _ h => h)
  cases r with
  | ok a => exact ht
  | error e =>
    exact World.Meets.bind (hfin e t (ht t (World.Others.refl _ t))).settled fun _ _ hu => hu

theorem calm {t : Offspring} {R : α → Offspring → Prop} {p : Program α} (hp : p.Makes Call.Calm)
    (hfin : p.Finishes) (hR : ∀ a u, s.Barren u → R a u) (ht : s.Barren t) :
    (World.offspring self).Meets (raising self few R) p t :=
  hp.meets_finishing hfin (fun _ _ hm hu => hu.others (.single hm))
    (fun _ _ _ _ hc ha hu => hu.trans (hc.barren ha)) (fun _ _ _ hc => hc.canGoOn) hR ht

theorem quiet {R : α → Offspring → Prop} {p : Program α} (hp : p.Makes Call.Quiet)
    (hfin : p.Finishes) (hR : ∀ a t, s.Since [] t → R a t) :
    (World.offspring self).Meets (raising self few R) p s := by
  refine hp.meets_finishing (I := s.Since []) hfin (fun t u hm ht => ht.others (.single hm))
    (fun t c a u hc ha ht => ?_) (fun _ _ _ hc => hc.calm.canGoOn) hR (.refl s)
  exact hc.frame ha ▸ ht

theorem attains {R : α → Offspring → Prop} {p : Program α}
    (h : (World.offspring self).Meets (raising self False R) p s) :
    (World.offspring self).Attains p s R :=
  h.attains Offspring.move_wellFounded (fun _ _ h => h) (fun _ _ h => h) (fun _ _ h => h)
    fun _ h => h

end Contract.raising

section Ends

variable {α β : Type}

theorem Program.Finishes.bind {p : Program α} {f : α → Program β} (hp : p.Finishes)
    (hf : ∀ a, (f a).Finishes) : (p.bind f).Finishes := by
  induction p with
  | done a => exact hf a
  | abort m => exact hp.elim
  | unfinished => exact hp.elim
  | note e p ih => exact ih hp
  | call c next ih => exact fun a => ih a (hp a)

theorem Program.Finishes.leaving {failed : α → Bool} {fin : Program Unit} {p : Program α}
    (hp : p.Finishes) (hfin : fin.Finishes) : (Program.leaving failed fin p).Finishes := by
  induction p with
  | done a =>
    unfold Program.leaving
    split
    · exact hfin.bind fun _ => trivial
    · trivial
  | abort m => exact hp.elim
  | unfinished => exact hp.elim
  | note e p ih => exact ih hp
  | call c next ih => exact fun a => ih a (hp a)

theorem Action.finishes_bind {p : Action α} {f : α → Action β} (hp : p.run.Finishes)
    (hf : ∀ a, (f a).run.Finishes) : (p >>= f).run.Finishes := by
  rw [run_bind]
  apply hp.bind
  intro r
  cases r with
  | ok a => exact hf a
  | error e => trivial

theorem Action.finishes_lift {p : Program α} (hp : p.Finishes) :
    (ExceptT.lift p : Action α).run.Finishes :=
  hp.bind fun _ => trivial

theorem Action.ofExcept_finishes (r : Except Failure α) :
    (MonadExcept.ofExcept r : Action α).run.Finishes := by
  cases r <;> trivial

theorem Descriptor.closeSafe_finishes (d : Descriptor) : d.closeSafe.Finishes := by
  obtain ⟨fd, name⟩ := d
  cases fd with
  | none => trivial
  | some fd =>
    intro a
    cases a <;> trivial

theorem Descriptor.drop_finishes (d : Descriptor) : d.drop.Finishes := by
  unfold drop
  split
  · exact d.closeSafe_finishes
  · trivial

theorem Descriptor.dropAll_finishes (ds : List Descriptor) : (dropAll ds).Finishes := by
  induction ds with
  | nil => trivial
  | cons d ds ih => exact d.drop_finishes.bind fun _ => ih

theorem Descriptor.openFile_finishes (file : File) (flags : OpenFlags) (perm : Mode) :
    (openFile file flags perm).run.Finishes := by
  intro kind a
  cases a with
  | error e => trivial
  | ok fd =>
    change Program.Finishes (ExceptT.run (if _ then _ else _))
    split
    · refine Action.finishes_bind (fun a => ?_) fun _ => trivial
      cases a with
      | ok _ => trivial
      | error e =>
        exact Action.finishes_bind (Action.finishes_lift (drop_finishes _)) fun _ => trivial
    · trivial

theorem BlockedSignals.drop_finishes (b : BlockedSignals) : b.drop.Finishes := by
  intro a
  cases a <;> trivial

theorem BlockedSignals.restoreLogged_finishes (b : BlockedSignals) : b.restoreLogged.Finishes := by
  intro a
  cases a <;> trivial

end Ends

def Failure.BeforeChild : Failure → Prop
  | .callFailed call _ _ => call ∈ ["pipe", "pthread_sigmask", "signal", "fork"]
  | .invalidString _ | .allocationFailed _ => True
  | _ => False

theorem Failure.OfMarshalling.beforeChild {f : Failure} (h : f.OfMarshalling) : f.BeforeChild := by
  cases f with
  | invalidString | allocationFailed => trivial
  | _ => exact h.elim

section Fork

open Contract (raising)

variable {self : Pid} {few : Prop} {s : Offspring}

def Deed.ofLaunch : Except Failure ProcessHandle → List Deed
  | .ok p => [.started p.pid]
  | .error _ => []

structure Offspring.Forked (s : Offspring) (own : Pid) (plan : LaunchPlan) (detached : Bool)
    (r : Except Failure ProcessHandle) (t : Offspring) : Prop where
  onward : s.Onward t
  ignoring_eq : t.ignoring = (s.ignoring || (detached && Failure.ofFork r))
  deeds_eq : t.deeds = s.deeds ++ Deed.ofLaunch r
  bears : ∀ p, r = .ok p → p.name = some plan.commandText ∧ s.Bears own p t
  failed : ∀ f, r = .error f → f.BeforeChild

theorem LaunchPlan.forkBlocked_raises (p : LaunchPlan) (b : BlockedSignals) (stdio : ChildStdio)
    (detached : Bool) :
    (World.offspring self).Meets (raising self few fun r t =>
      Failure.ofFork r = true ∧ s.Forked self p false r t)
      (p.forkBlocked b stdio detached).run s := by
  refine (World.meets_ask_bind _ _ _).mpr fun t ht => ⟨?_, fun a u ha => ?_⟩
  · exact .inl ⟨.error .EAGAIN, t, rfl⟩
  have hst : s.Since [] t := .others (.refl s) ht
  cases a with
  | error e =>
    obtain rfl : u = t := ha
    refine World.Meets.lift_bind (raising.quiet (b.drop_makes fun _ => trivial) b.drop_finishes
      fun _ _ hv => hv) fun _ v hv w hw => ⟨rfl, ?_⟩
    have hsw := (hst.trans hv).others hw
    exact ⟨hsw.toOnward, by simpa using hsw.ignoring_eq, hsw.deeds_eq, nofun,
      fun f hf => by cases hf; simp [Failure.BeforeChild]⟩
  | ok pid =>
    obtain ⟨hpos, hself, hpid, rfl⟩ := ha
    refine World.Meets.lift_bind (raising.quiet (b.restoreLogged_makes fun _ => trivial)
      b.restoreLogged_finishes fun _ _ hv => hv) fun _ v hv => ?_
    refine (World.meets_log_bind _ _ _).mpr fun w hw => ⟨rfl, ?_⟩
    have hborn := hv.others hw
    have hsw := (hst.trans (.of_born hpid)).trans hborn
    refine ⟨hsw.toOnward, by simpa using hsw.ignoring_eq, hsw.deeds_eq, fun q hq => ?_, nofun⟩
    obtain rfl := Except.ok.inj hq
    have hbears : t.Bears self ⟨pid, some p.commandText⟩
        ((t.setFate pid .running).did (.started pid)) :=
      ⟨hpos, hself, hpid, .running, by simp [Offspring.did], .same _⟩
    exact ⟨rfl, (hbears.before hst.toOnward).later hborn⟩

theorem Offspring.Forked.before {t u : Offspring} {plan : LaunchPlan} {detached : Bool}
    {r : Except Failure ProcessHandle} (h : t.Forked self plan false r u) (hst : s.Onward t)
    (hdeeds : t.deeds = s.deeds) (hignoring : t.ignoring = (s.ignoring || detached))
    (hfork : Failure.ofFork r = true) : s.Forked self plan detached r u where
  onward := hst.trans h.onward
  ignoring_eq := by simpa [hfork, hignoring] using h.ignoring_eq
  deeds_eq := hdeeds ▸ h.deeds_eq
  bears p hp := ⟨(h.bears p hp).1, (h.bears p hp).2.before hst⟩
  failed := h.failed

def Failure.BeforeFork (f : Failure) : Prop :=
  f.BeforeChild ∧ ofFork (.error f : Except Failure ProcessHandle) = false

theorem Offspring.Forked.of_failure {t : Offspring} {plan : LaunchPlan} {detached : Bool}
    {f : Failure} (hst : s.Onward t) (hdeeds : t.deeds = s.deeds)
    (hignoring : t.ignoring = s.ignoring) (hf : f.BeforeFork) :
    s.Forked self plan detached (.error f) t where
  onward := hst
  ignoring_eq := by simpa [hf.2] using hignoring
  deeds_eq := hdeeds.trans (List.append_nil s.deeds).symm
  bears := nofun
  failed g hg := Except.error.inj hg ▸ hf.1

theorem Offspring.Forked.since {t : Offspring} {plan : LaunchPlan}
    {r : Except Failure ProcessHandle} (h : s.Forked self plan false r t) :
    s.Since (Deed.ofLaunch r) t :=
  ⟨h.onward, by simpa using h.ignoring_eq, h.deeds_eq⟩

theorem BlockedSignals.blockAll_raises : (World.offspring self).Meets (raising self few fun r t =>
    s.Since [] t ∧ ∀ f, r = .error f → f.BeforeFork) blockAll.run s := by
  refine (World.meets_ask_bind _ _ _).mpr fun t ht =>
    ⟨Call.Calm.canGoOn trivial, fun a u ha => ?_⟩
  obtain rfl : u = t := ha
  have hst : s.Since [] u := .others (.refl s) ht
  cases a with
  | ok old => exact fun v hv => ⟨hst.others hv, nofun⟩
  | error e =>
    refine fun v hv => ⟨hst.others hv, fun f hf => ?_⟩
    cases hf
    simp [Failure.BeforeFork, Failure.BeforeChild, Failure.ofFork]

theorem LaunchPlan.ignoreChildTermination_raises (b : BlockedSignals) :
    (World.offspring self).Meets (raising self few fun r t => s.Onward t ∧ t.deeds = s.deeds ∧
      (r = .ok () → t.ignoring = true) ∧
      ∀ f, r = .error f → t.ignoring = s.ignoring ∧ f.BeforeFork)
      (ignoreChildTermination.onLeave b.drop).run s := by
  refine raising.onLeave ?_ fun f t h => ?_
  · refine (World.meets_ask_bind _ _ _).mpr fun t ht =>
      ⟨.inl ⟨.error .EINVAL, t, rfl⟩, fun a u ha => ?_⟩
    have hst : s.Since [] t := .others (.refl s) ht
    cases a with
    | ok _ =>
      obtain rfl : u = { t with ignoring := true } := ha
      intro v hv
      have hset : t.Onward { t with ignoring := true } :=
        ⟨fun _ => rfl, Nat.le_refl _, fun _ f hf => ⟨f, hf, .same f⟩⟩
      have hrest : Offspring.Since { t with ignoring := true } [] v := .others (.refl _) hv
      exact ⟨(hst.toOnward.trans hset).trans hrest.toOnward,
        by simpa using hrest.deeds_eq.trans (congrArg (· ++ []) hst.deeds_eq),
        fun _ => hrest.ignoring_eq, nofun⟩
    | error e =>
      obtain rfl : u = t := ha
      intro v hv
      have hsv := hst.others hv
      refine ⟨hsv.toOnward, by simpa using hsv.deeds_eq, nofun, fun f hf => ⟨hsv.ignoring_eq, ?_⟩⟩
      cases hf
      simp [Failure.BeforeFork, Failure.BeforeChild, Failure.ofFork]
  · refine raising.quiet (b.drop_makes fun _ => trivial) b.drop_finishes fun _ u hu => ?_
    obtain ⟨hst, hdeeds, -, hf⟩ := h
    refine ⟨hst.trans hu.toOnward, by simpa [hdeeds] using hu.deeds_eq, nofun, fun g hg => ?_⟩
    exact ⟨hu.ignoring_eq.trans (hf g hg).1, (hf g hg).2⟩

theorem LaunchPlan.fork_raises (p : LaunchPlan) (stdio : ChildStdio) (detached : Bool) :
    (World.offspring self).Meets (raising self few (s.Forked self p detached))
      (p.fork stdio detached).run s := by
  refine raising.bind BlockedSignals.blockAll_raises (fun b t ht => ?_) fun f t h => ?_
  · have hst := ht.1
    cases detached with
    | false =>
      refine (p.forkBlocked_raises b stdio false).returning fun r u hu => ?_
      exact hu.2.before hst.toOnward (by simpa using hst.deeds_eq) (by simp [hst.ignoring_eq]) hu.1
    | true =>
      refine raising.bind (ignoreChildTermination_raises b) (fun _ u hu => ?_) fun f u hu => ?_
      · obtain ⟨htu, hdeeds, hignoring, -⟩ := hu
        -- from here on the launch counts as one that forgets, whether it gets its child or not
        refine (p.forkBlocked_raises b stdio true).returning fun r v hv => ?_
        exact hv.2.before (hst.toOnward.trans htu) (hdeeds.trans (by simpa using hst.deeds_eq))
          (by simp [hignoring rfl]) hv.1
      · obtain ⟨htu, hdeeds, -, hf⟩ := hu
        exact .of_failure (hst.toOnward.trans htu) (hdeeds.trans (by simpa using hst.deeds_eq))
          ((hf f rfl).1.trans hst.ignoring_eq) (hf f rfl).2
  · exact .of_failure h.1.toOnward (by simpa using h.1.deeds_eq) h.1.ignoring_eq (h.2 f rfl)

theorem Executable.planned_run {α : Type} (e : Executable) (params : List Bytes)
    (env : Option Environment) (f : LaunchPlan → Action α) :
    (e.plan params env >>= f).run = match LaunchPlan.make e.program params env with
      | .ok plan => (f plan).run
      | .error failure => .done (.error failure) := by
  unfold plan
  cases LaunchPlan.make e.program params env <;> rfl

theorem Executable.planned_raises (e : Executable) (params : List Bytes) (env : Option Environment)
    (stdio : ChildStdio) (detached : Bool) :
    (World.offspring self).Meets (raising self few fun r t => s.Onward t ∧
      t.deeds = s.deeds ++ Deed.ofLaunch r ∧
      t.ignoring = (s.ignoring || (detached && Failure.ofFork r)) ∧
      ∀ p, r = .ok p → s.Bears self p t)
      (e.plan params env >>= fun plan => plan.fork stdio detached).run s := by
  rw [planned_run]
  cases hplan : LaunchPlan.make e.program params env with
  | error f =>
    have hfailure := LaunchPlan.ofMarshalling_of_make hplan
    intro t ht
    have hst : s.Since [] t := .others (.refl s) ht
    exact ⟨hst.toOnward, hst.deeds_eq, by simp [hfailure.ofFork, hst.ignoring_eq], nofun⟩
  | ok plan =>
    exact (plan.fork_raises stdio detached).returning fun r t h =>
      ⟨h.onward, h.deeds_eq, h.ignoring_eq, fun p hp => (h.bears p hp).2⟩

end Fork

section Join

open Contract (raising)

variable {self : Pid} {few : Prop} {s t : Offspring}

def ProcessHandle.noChild (p : ProcessHandle) : Failure := .callFailed "waitpid" p.context .ECHILD

def Offspring.Joined (s : Offspring) (p : ProcessHandle) (strict : Bool) (r : Except Failure Int)
    (t : Offspring) : Prop :=
  match s.fates p.pid with
  | some .running => ∃ e,
    if s.ignoring then t.fates p.pid = some (.discarded e) ∧ r = .error p.noChild
    else t.fates p.pid = some (.told e) ∧ r = (e.status p.pid).outcome strict
  | some (.kept e) => t.fates p.pid = some (.told e) ∧ r = (e.status p.pid).outcome strict
  | f => t.fates p.pid = f ∧ r = .error p.noChild

theorem Offspring.fates_of_others (h : (World.offspring self).Others s t) (pid : Pid) :
    t.fates pid = s.fates pid ∨ s.fates pid = some .running ∧
      ∃ e, t.fates pid = some (if s.ignoring then .discarded e else .kept e) := by
  induction h with
  | refl => exact .inl rfl
  | @tail t u ho hm ih =>
    have hsame : t.ignoring = s.ignoring := (Since.others (.refl s) ho).ignoring_eq
    cases hm with
    | @ends q e ht =>
      by_cases hq : pid = q
      · subst hq
        -- a child that ends now has not ended before
        obtain heq | ⟨-, e', he'⟩ := ih
        · exact .inr ⟨heq ▸ ht, e, by simp [hsame]⟩
        · rw [ht] at he'
          split at he' <;> simp at he'
      · simpa [hq] using ih

theorem Offspring.settled_of_others (h : (World.offspring self).Others s t) {pid : Pid}
    (hs : s.fates pid ≠ some .running) : t.fates pid = s.fates pid :=
  (fates_of_others h pid).resolve_right fun h => hs h.1

theorem Offspring.canGoOn_wait (s : Offspring) {pid : Pid} (hpid : 0 < pid) :
    (World.offspring self).CanGoOn s (.wait pid) := by
  cases hs : s.fates pid with
  | none => exact .inl ⟨.error .ECHILD, s.did (.waited pid), hpid, by simp [Tells, hs]⟩
  | some f =>
    cases f with
    | running => exact .inr ⟨_, .ends (.exited 0) hs⟩
    | kept e =>
      exact .inl ⟨.ok (e.status pid), (s.setFate pid (.told e)).did (.waited pid), hpid,
        by simp [Tells, hs]⟩
    | told | discarded =>
      exact .inl ⟨.error .ECHILD, s.did (.waited pid), hpid, by simp [Tells, hs]⟩

theorem Offspring.Tells.cases {pid : Pid} {a : Except Errno WaitStatus} (h : s.Tells pid a t) :
    (∃ e, s.fates pid = some (.kept e) ∧ a = .ok (e.status pid) ∧
      t = (s.setFate pid (.told e)).did (.waited pid)) ∨
    (s.fates pid ≠ some .running ∧ (∀ e, s.fates pid ≠ some (.kept e)) ∧ a = .error .ECHILD ∧
      t = s.did (.waited pid)) := by
  unfold Tells at h
  split at h
  · exact h.elim
  · exact .inl ⟨_, ‹_›, h.1, h.2⟩
  · exact .inr ⟨‹_›, ‹_›, h.1, h.2⟩

theorem Offspring.Joined.of_kept {u : Offspring} {p : ProcessHandle} {strict : Bool} {e : Death}
    (hst : (World.offspring self).Others s t) (ht : t.fates p.pid = some (.kept e))
    (hu : u.fates p.pid = some (.told e)) :
    s.Joined p strict ((e.status p.pid).outcome strict) u := by
  unfold Joined
  obtain heq | ⟨hrunning, e', he'⟩ := fates_of_others hst p.pid
  · rw [← heq, ht]
    exact ⟨hu, rfl⟩
  · rw [hrunning]
    refine ⟨e, ?_⟩
    split
    · rw [if_pos ‹_›, ht] at he'
      cases he'
    · exact ⟨hu, rfl⟩

theorem Offspring.Joined.of_gone {u : Offspring} {p : ProcessHandle} {strict : Bool}
    (hst : (World.offspring self).Others s t) (hrunning : t.fates p.pid ≠ some .running)
    (hkept : ∀ e, t.fates p.pid ≠ some (.kept e)) (hu : u.fates p.pid = t.fates p.pid) :
    s.Joined p strict (.error p.noChild) u := by
  unfold Joined
  obtain heq | ⟨hs, e, he⟩ := fates_of_others hst p.pid
  · rw [← heq]
    split
    · exact absurd ‹_› hrunning
    · exact absurd ‹_› (hkept _)
    · exact ⟨hu, rfl⟩
  · rw [hs]
    refine ⟨e, ?_⟩
    split
    · rw [if_pos ‹_›] at he
      exact ⟨hu.trans he, rfl⟩
    · rw [if_neg ‹_›] at he
      exact absurd he (hkept e)

structure Offspring.Joins (s : Offspring) (p : ProcessHandle) (strict : Bool)
    (r : Except Failure Int) (t : Offspring) : Prop where
  joined : s.Joined p strict r t
  ignoring_eq : t.ignoring = s.ignoring
  supply_le : t.supply ≤ s.supply
  deeds_eq : t.deeds = s.deeds ++ [.waited p.pid]
  fates : ∀ q f, q ≠ p.pid → s.fates q = some f →
    ∃ g, t.fates q = some g ∧ Fate.Ages s.ignoring t.ignoring f g

theorem Offspring.Joins.of_answer {t u v : Offspring} {p : ProcessHandle} {strict : Bool}
    {r : Except Failure Int} (hst : (World.offspring self).Others s t)
    (huv : (World.offspring self).Others u v) (hignoring : u.ignoring = t.ignoring)
    (hsupply : u.supply = t.supply) (hdeeds : u.deeds = t.deeds ++ [.waited p.pid])
    (hfates : ∀ q, q ≠ p.pid → u.fates q = t.fates q) (hjoined : s.Joined p strict r v) :
    s.Joins p strict r v := by
  have hbefore : s.Since [] t := .others (.refl s) hst
  have hafter : u.Since [] v := .others (.refl u) huv
  refine ⟨hjoined, hafter.ignoring_eq.trans (hignoring.trans hbefore.ignoring_eq),
    hafter.supply.trans (hsupply ▸ hbefore.supply), ?_, fun q f hq hf => ?_⟩
  · simp [hafter.deeds_eq, hdeeds, hbefore.deeds_eq]
  · obtain ⟨g, hg, hfg⟩ := hbefore.fates q f hf
    obtain ⟨h, hh, hgh⟩ := hafter.fates q g (hfates q hq ▸ hg)
    rw [hignoring] at hgh
    have hmono : t.ignoring = true → v.ignoring = true := fun h =>
      hafter.ignoring (hignoring ▸ h)
    exact ⟨h, hh, hfg.trans hbefore.ignoring hmono hgh⟩

theorem ProcessHandle.join_raises (p : ProcessHandle) (strict : Bool) (hpid : 0 < p.pid)
    (hself : p.pid ≠ self) :
    (World.offspring self).Meets (raising self few (s.Joins p strict))
      (p.join self strict).run s := by
  unfold join
  rw [if_neg hself]
  refine (World.meets_ask_bind _ _ _).mpr fun t ht => ⟨t.canGoOn_wait hpid, fun a u ha => ?_⟩
  obtain ⟨e, hkept, rfl, rfl⟩ | ⟨hrunning, hkept, rfl, rfl⟩ := ha.2.cases
  · refine (World.meets_log_bind _ _ _).mpr ((World.meets_ofExcept _ _).mpr fun v hv => ?_)
    have htold : v.fates p.pid = some (.told e) := by
      rw [Offspring.settled_of_others hv] <;> simp [Offspring.did]
    exact .of_answer ht hv rfl rfl rfl (fun q hq => by simp [Offspring.did, hq])
      (.of_kept ht hkept htold)
  · intro v hv
    exact .of_answer ht hv rfl rfl rfl (fun _ _ => rfl)
      (.of_gone ht hrunning hkept (Offspring.settled_of_others hv hrunning))

theorem Offspring.Joins.since {u : Offspring} {ds : List Deed} {p : ProcessHandle} {strict : Bool}
    {r : Except Failure Int} (h : t.Joins p strict r u) (hst : s.Since ds t)
    (hunborn : s.fates p.pid = none) : s.Since (ds ++ [.waited p.pid]) u := by
  refine ⟨⟨fun hs => ?_, h.supply_le.trans hst.supply, fun q f hf => ?_⟩,
    h.ignoring_eq.trans hst.ignoring_eq, ?_⟩
  · rw [h.ignoring_eq, hst.ignoring_eq, hs]
  · have hq : q ≠ p.pid := by
      rintro rfl
      cases hunborn.symm.trans hf
    obtain ⟨g, hg, hfg⟩ := hst.fates q f hf
    obtain ⟨g', hg', hgg'⟩ := h.fates q g hq hg
    exact ⟨g', hg', hfg.trans hst.ignoring (fun h' => h.ignoring_eq ▸ h') hgg'⟩
  · simp [h.deeds_eq, hst.deeds_eq]

theorem Offspring.Awaited.joined {p : ProcessHandle} {strict : Bool} {r : Except Failure Int}
    (hp : s.Awaited p.pid) (h : s.Joined p strict r t) :
    ∃ e, if s.ignoring then t.fates p.pid = some (.discarded e) ∧ r = .error p.noChild
      else t.fates p.pid = some (.told e) ∧ r = (e.status p.pid).outcome strict := by
  obtain ⟨f, hf, hages⟩ := hp
  unfold Joined at h
  rw [hf] at h
  cases hages with
  | same => exact h
  | kept e hignoring => exact ⟨e, by simpa [hignoring] using h⟩
  | discarded e hignoring => exact ⟨e, by simpa [hignoring] using h⟩

end Join

end OwnedHandles
