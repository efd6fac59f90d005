import Mathlib.Logic.Function.Basic
import OwnedHandles.Proofs.Openings
import OwnedHandles.Proofs.StatusWords

/-!
Whom a handle is about. The system takes a process number that is not positive for a group of
processes or for all of them, and a handle passes on whatever number it is given. With a positive
number an operation leaves every other process to itself (`ProcessHandle.handles_spare_others`),
and what comes of it depends on no other process.
-/

namespace OwnedHandles

open Kernel (Sys.leastPid)

structure Resident where
  child : Bool
  group : Pid
  reachable : Bool
  news : Option WaitStatus := none
  received : List Nat := []
  deriving DecidableEq, Repr

namespace Resident

def told (r : Resident) : WaitStatus → Option Resident
  | .exited .. | .signaled .. => none
  | _ => some { r with news := none }

def receive (r : Resident) (signal : Nat) : Resident :=
  if signal = 0 then r else { r with received := r.received ++ [signal] }

end Resident

abbrev Society := Pid → Option Resident

namespace Society

/-- The number `pid` stands for the process `q` where `self` runs. -/
def Addresses (s : Society) (self pid q : Pid) (r : Resident) : Prop :=
  (0 < pid ∧ q = pid) ∨ (pid = 0 ∧ (s self).map Resident.group = some r.group) ∨ pid = -1 ∨
    (pid < -1 ∧ pid ≠ Sys.leastPid ∧ r.group = -pid)

instance (s : Society) (self pid q : Pid) (r : Resident) :
    Decidable (s.Addresses self pid q r) :=
  inferInstanceAs (Decidable (_ ∨ _))

/-- A signal to everybody spares the first process and the one that sends it. -/
def Meant (s : Society) (self pid q : Pid) (r : Resident) : Prop :=
  s.Addresses self pid q r ∧ (pid = -1 → q ≠ 1 ∧ q ≠ self)

instance (s : Society) (self pid q : Pid) (r : Resident) : Decidable (s.Meant self pid q r) :=
  inferInstanceAs (Decidable (_ ∧ _))

def deliver (s : Society) (self pid : Pid) (signal : Nat) : Society := fun q =>
  (s q).map fun r => if s.Meant self pid q r ∧ r.reachable then r.receive signal else r

def answers (self : Pid) (s : Society) : (c : Call) → c.Answer → Society → Prop
  | .wait pid, .ok status, t => ∃ q r, s q = some r ∧ s.Addresses self pid q r ∧
      r.child = true ∧ r.news = some status ∧ t = Function.update s q (r.told status)
  | .wait pid, .error e, t => t = s ∧ (e = .EINTR ∨ (pid = Sys.leastPid ∧ e = .ESRCH) ∨
      (pid ≠ Sys.leastPid ∧ e = .ECHILD ∧
        ∀ q r, s q = some r → s.Addresses self pid q r → r.child = false))
  | .kill pid signal, .ok _, t => t = s.deliver self pid signal ∧
      ∃ q r, s q = some r ∧ s.Meant self pid q r ∧ (r.reachable = true ∨ pid = -1)
  | .kill pid _, .error e, t => t = s ∧
      ((e = .ESRCH ∧ ∀ q r, s q = some r → ¬s.Meant self pid q r) ∨
        (e = .EPERM ∧ pid ≠ -1 ∧ (∃ q r, s q = some r ∧ s.Meant self pid q r) ∧
          ∀ q r, s q = some r → s.Meant self pid q r → r.reachable = false))
  | _, _, _ => False

end Society

/-- What a process may become without the operations of handles: `law q` says it of the process
with number `q`, from its coming to its going and after that. -/
abbrev Law := Pid → Option Resident → Option Resident → Prop

abbrev Law.Evolves (law : Law) (q : Pid) : Option Resident → Option Resident → Prop :=
  Relation.ReflTransGen (law q)

def World.society (self : Pid) (law : Law) : World Society where
  answers := Society.answers self
  moves s t := ∃ q r, law q (s q) r ∧ t = Function.update s q r

/-- The number stands for one process, or for none. The least number is refused by the system. -/
def Pid.StandsForOne (pid : Pid) : Prop := 0 < pid ∨ pid = Sys.leastPid

theorem Pid.nonpos {pid : Pid} (h : ¬pid.StandsForOne) : pid ≤ 0 := by
  unfold StandsForOne at h
  grind

def Call.About (q : Pid) : Call → Prop
  | .wait pid | .kill pid _ => pid = q
  | _ => False

theorem Program.Makes.caught {α : Type} {P : Call → Prop} {p : Program α} (hp : p.Makes P) :
    p.caught.Makes P := by
  induction p with
  | done a => trivial
  | abort m => trivial
  | unfinished => trivial
  | note e p ih => exact ih hp
  | call c next ih => exact ⟨hp.1, fun a => ih a (hp.2 a)⟩

section Single

variable {self q : Pid} {law : Law} {s t s' : Society} {c : Call} {a : c.Answer}

namespace Society

theorem Addresses.eq {x : Pid} {r : Resident} (hq : Pid.StandsForOne q)
    (h : s.Addresses self q x r) : 0 < q ∧ x = q := by
  unfold Pid.StandsForOne at hq
  unfold Addresses at h
  grind [Sys.leastPid]

theorem addresses_self {r : Resident} (hq : 0 < q) : s.Addresses self q q r := .inl ⟨hq, rfl⟩

theorem meant_self {r : Resident} (hq : 0 < q) : s.Meant self q q r :=
  ⟨addresses_self hq, by grind⟩

theorem deliver_of_ne {x : Pid} (hq : Pid.StandsForOne q) (hx : x ≠ q) (signal : Nat) :
    s.deliver self q signal x = s x := by
  have hnot (r : Resident) : ¬s.Meant self q x r := fun h => hx (h.1.eq hq).2
  simp [deliver, hnot]

theorem deliver_self (hq : 0 < q) (signal : Nat) : s.deliver self q signal q =
    (s q).map fun r => if r.reachable then r.receive signal else r := by
  simp [deliver, meant_self hq]

theorem answers_spare (hq : Pid.StandsForOne q) (hc : c.About q) (h : answers self s c a t) :
    ∀ x ≠ q, t x = s x := by
  intro x hx
  cases c with
  | wait pid =>
    obtain rfl : pid = q := hc
    cases a with
    | ok status =>
      obtain ⟨y, r, -, haddressed, -, -, rfl⟩ := h
      obtain ⟨-, rfl⟩ := haddressed.eq hq
      exact Function.update_of_ne hx _ _
    | error e => exact congrFun h.1 x
  | kill pid signal =>
    obtain rfl : pid = q := hc
    cases a with
    | ok _ =>
      obtain ⟨rfl, -⟩ := h
      exact deliver_of_ne hq hx signal
    | error e => exact congrFun h.1 x
  | _ => exact hc.elim

theorem answers_local (hq : Pid.StandsForOne q) (hc : c.About q) (h : answers self s c a t)
    (hs : s' q = s q) : ∃ t', answers self s' c a t' ∧ t' q = t q := by
  cases c with
  | wait pid =>
    obtain rfl : pid = q := hc
    cases a with
    | ok status =>
      obtain ⟨y, r, hr, haddressed, hchild, hnews, rfl⟩ := h
      obtain ⟨hpos, rfl⟩ := haddressed.eq hq
      exact ⟨_, ⟨y, r, hs.trans hr, addresses_self hpos, hchild, hnews, rfl⟩, by simp⟩
    | error e =>
      obtain ⟨rfl, he⟩ := h
      refine ⟨s', ⟨rfl, ?_⟩, hs⟩
      obtain he | he | ⟨hleast, he, hnone⟩ := he
      · exact .inl he
      · exact .inr (.inl he)
      · refine .inr (.inr ⟨hleast, he, fun x r hr haddressed => ?_⟩)
        obtain ⟨hpos, rfl⟩ := haddressed.eq hq
        exact hnone x r (hs ▸ hr) (addresses_self hpos)
  | kill pid signal =>
    obtain rfl : pid = q := hc
    cases a with
    | ok _ =>
      obtain ⟨rfl, x, r, hr, hmeant, hreached⟩ := h
      obtain ⟨hpos, rfl⟩ := hmeant.1.eq hq
      refine ⟨_, ⟨rfl, x, r, hs.trans hr, meant_self hpos, hreached⟩, ?_⟩
      rw [deliver_self hpos, deliver_self hpos, hs]
    | error e =>
      obtain ⟨rfl, he⟩ := h
      refine ⟨s', ⟨rfl, ?_⟩, hs⟩
      obtain ⟨he, hnone⟩ | ⟨he, hall, ⟨x, r, hr, hmeant⟩, hrefused⟩ := he
      · refine .inl ⟨he, fun x r hr hmeant => ?_⟩
        obtain ⟨hpos, rfl⟩ := hmeant.1.eq hq
        exact hnone x r (hs ▸ hr) (meant_self hpos)
      · obtain ⟨hpos, rfl⟩ := hmeant.1.eq hq
        refine .inr ⟨he, hall, ⟨x, r, hs.trans hr, meant_self hpos⟩, fun y u hu hmeant' => ?_⟩
        obtain ⟨-, rfl⟩ := hmeant'.1.eq hq
        exact hrefused y u (hs ▸ hu) (meant_self hpos)
  | _ => exact hc.elim

end Society

end Single

namespace World.society

variable {α : Type} {self q : Pid} {law : Law} {s t s' : Society} {p : Program α} {a : α}

theorem others_evolve (h : (World.society self law).Others s t) (x : Pid) :
    law.Evolves x (s x) (t x) := by
  induction h with
  | refl => exact .refl
  | tail _ hm ih =>
    obtain ⟨y, r, hr, rfl⟩ := hm
    by_cases hx : x = y
    · subst hx
      simpa using ih.tail hr
    · simpa [hx] using ih

theorem others_of_evolve {r : Option Resident} (h : law.Evolves q (s q) r) :
    (World.society self law).Others s (Function.update s q r) := by
  induction h with
  | refl => simpa using World.Others.refl _ s
  | @tail r r' _ hr ih =>
    refine ih.trans (.single ⟨q, r', by simpa using hr, by simp⟩)

theorem returns_leave {P : Call → Prop} {Q : Pid → Prop}
    (hanswers : ∀ u c (b : c.Answer) v, P c → Society.answers self u c b v → ∀ x, Q x → v x = u x)
    (hp : p.Makes P) (h : (World.society self law).Returns p s a t) :
    ∀ x, Q x → law.Evolves x (s x) (t x) := by
  let spared (u : Society) : Prop := ∀ x, Q x → law.Evolves x (s x) (u x)
  have hmeets : (World.society self law).Meets (.result fun _ => spared) p s := by
    refine hp.meets_keeping (I := spared) ?_ ?_
      (fun _ _ _ _ => trivial) (fun _ u hu => hu) (fun _ _ _ => trivial) (fun _ _ => trivial)
      fun _ _ => .refl
    · intro u v hm hu x hx
      exact (hu x hx).trans (others_evolve (.single hm) x)
    · intro u c b v hc hb hu x hx
      rw [hanswers u c b v hc hb x hx]
      exact hu x hx
  exact hmeets.returns h

theorem returns_spare (hq : Pid.StandsForOne q) (hp : p.Makes (Call.About q))
    (h : (World.society self law).Returns p s a t) : ∀ x ≠ q, law.Evolves x (s x) (t x) :=
  returns_leave (fun _ _ _ _ hc hb => Society.answers_spare hq hc hb) hp h

theorem returns_local (hq : Pid.StandsForOne q) (hp : p.Makes (Call.About q))
    (h : (World.society self law).Returns p s a t) (hs : s' q = s q) :
    ∃ t', (World.society self law).Returns p s' a t' ∧ t' q = t q := by
  suffices hreach : ∀ x : Program α × Society,
      (World.society self law).Reaches x (.done a, t) → x.1.Makes (Call.About q) →
        ∀ s', s' q = x.2 q →
          ∃ t', (World.society self law).Reaches (x.1, s') (.done a, t') ∧ t' q = t q from
    hreach _ h hp s' hs
  intro x hx
  induction hx using Relation.ReflTransGen.head_induction_on with
  | refl => exact fun _ s' hs => ⟨s', .refl, hs⟩
  | head hstep _ ih =>
    intro hp s' hs
    cases hstep with
    | note =>
      obtain ⟨t', hrun, ht⟩ := ih hp s' hs
      exact ⟨t', .head .note hrun, ht⟩
    | call hanswers =>
      obtain ⟨u', hanswers', hu⟩ := Society.answers_local hq hp.1 hanswers hs
      obtain ⟨t', hrun, ht⟩ := ih (hp.2 _) u' hu
      exact ⟨t', .head (.call hanswers') hrun, ht⟩
    | @others p u v hm =>
      have hevolves : law.Evolves q (s' q) (v q) := hs ▸ others_evolve (.single hm) q
      obtain ⟨t', hrun, ht⟩ := ih hp (Function.update s' q (v q)) (by simp)
      exact ⟨t', ((others_of_evolve hevolves).reaches p).trans hrun, ht⟩

end World.society

namespace ProcessHandle

inductive Operation
  | join (strict : Bool)
  | signal (s : Signal)
  | isThere
  | terminate
  deriving DecidableEq, Repr

inductive Result
  | joined (r : Except Failure Int)
  | sent (r : Except Failure Unit)
  | there (b : Bool)
  | panicked (message : String)
  deriving DecidableEq, Repr

variable {self q : Pid} {law : Law} {s t s' : Society} {p : ProcessHandle} {o : Operation}
  {r : Result}

def perform (self : Pid) (p : ProcessHandle) : Operation → Program Result
  | .join strict => do
    match ← (p.join self strict).run.caught with
    | .ok r => return .joined r
    | .error m => return .panicked m
  | .signal s => do return .sent (← (p.signal s).run)
  | .isThere => do return .there (← p.isThere)
  | .terminate => do return .sent (← p.terminate.run)

theorem perform_join (h : p.pid ≠ self) (strict : Bool) :
    p.perform self (.join strict) = .call (.wait p.pid) fun a => match a with
      | .error e => .done (.joined (.error (.callFailed "waitpid" p.context e)))
      | .ok status =>
        .note (p.ended (status.outcome strict)) (.done (.joined (status.outcome strict))) := by
  change ((p.join self strict).run.caught).bind _ = _
  rw [join_run h]
  change Program.call _ _ = _
  congr 1
  funext a
  cases a <;> rfl

theorem signal_about (p : ProcessHandle) (s : Signal) :
    (p.signal s).run.Makes (Call.About p.pid) := by
  refine Action.makes_bind ⟨rfl, fun _ => trivial⟩ fun r => ?_
  cases r <;> trivial

theorem isThere_about (p : ProcessHandle) : p.isThere.Makes (Call.About p.pid) :=
  ⟨rfl, fun _ => trivial⟩

theorem perform_about (self : Pid) (p : ProcessHandle) (o : Operation) :
    (p.perform self o).Makes (Call.About p.pid) := by
  cases o with
  | join strict =>
    have hwait : (Call.wait p.pid).About p.pid := rfl
    apply (join_makes_own hwait self strict).caught.bind
    intro r
    cases r <;> trivial
  | signal s => exact (p.signal_about s).bind fun _ => trivial
  | isThere => exact p.isThere_about.bind fun _ => trivial
  | terminate =>
    have hterminate : p.terminate.run.Makes (Call.About p.pid) := by
      refine Action.makes_bind (Action.makes_lift p.isThere_about) fun there => ?_
      cases there with
      | true => exact p.signal_about .SIGTERM
      | false => trivial
    exact hterminate.bind fun _ => trivial

structure Episode where
  handle : ProcessHandle
  operation : Operation
  result : Result

inductive Lives (self : Pid) (law : Law) : Society → List Episode → Society → Prop
  | nil (s : Society) : Lives self law s [] s
  | rest {s t u : Society} {es : List Episode} : (World.society self law).Others s t →
      Lives self law t es u → Lives self law s es u
  | perform {s t u : Society} {p : ProcessHandle} {o : Operation} {r : Result}
      {es : List Episode} : (World.society self law).Returns (p.perform self o) s r t →
      Lives self law t es u → Lives self law s (⟨p, o, r⟩ :: es) u

theorem Lives.purge {es : List Episode} (h : Lives self law s es t)
    (hes : ∀ e ∈ es, e.handle.pid.StandsForOne) (hs : s' q = s q) :
    ∃ t', Lives self law s' (es.filter fun e => e.handle.pid = q) t' ∧ t' q = t q := by
  induction h generalizing s' with
  | nil s => exact ⟨s', .nil s', hs⟩
  | @rest s t u es hrest _ ih =>
    have hevolves : law.Evolves q (s' q) (t q) := hs ▸ World.society.others_evolve hrest q
    obtain ⟨t', hlives, ht⟩ := ih hes (by simp : Function.update s' q (t q) q = t q)
    exact ⟨t', .rest (World.society.others_of_evolve hevolves) hlives, ht⟩
  | @perform s t u p o r es hreturns _ ih =>
    rw [List.forall_mem_cons] at hes
    obtain ⟨hpid, hes⟩ := hes
    by_cases hq : p.pid = q
    · subst hq
      obtain ⟨t', hreturns', ht⟩ :=
        World.society.returns_local hpid (p.perform_about self o) hreturns hs
      obtain ⟨u', hlives, hu⟩ := ih hes ht
      exact ⟨u', by simpa using .perform hreturns' hlives, hu⟩
    · have hevolves : law.Evolves q (s' q) (t q) :=
        hs ▸ World.society.returns_spare hpid (p.perform_about self o) hreturns q (Ne.symm hq)
      obtain ⟨u', hlives, hu⟩ := ih hes (by simp : Function.update s' q (t q) q = t q)
      exact ⟨u', by simpa [hq] using .rest (World.society.others_of_evolve hevolves) hlives, hu⟩

theorem Lives.unhandled {es : List Episode} (h : Lives self law s es t)
    (hes : ∀ e ∈ es, e.handle.pid.StandsForOne) (hq : ∀ e ∈ es, e.handle.pid ≠ q) :
    law.Evolves q (s q) (t q) := by
  induction h with
  | nil s => exact .refl
  | rest hrest _ ih => exact (World.society.others_evolve hrest q).trans (ih hes hq)
  | perform hreturns _ ih =>
    rw [List.forall_mem_cons] at hes hq
    exact (World.society.returns_spare hes.1 (perform_about _ _ _) hreturns q hq.1.symm).trans
      (ih hes.2 hq.2)

/-- The operation leaves every process with another number to itself, whatever processes there are
and whatever they do. -/
def Spares (self pid : Pid) (o : Operation) : Prop :=
  ∀ name law s r t, (World.society self law).Returns (perform self ⟨pid, name⟩ o) s r t →
    ∀ q ≠ pid, law.Evolves q (s q) (t q)

/-- A process that is said to be there has been there. -/
def TellsTrue (self pid : Pid) : Prop :=
  ∀ name law s t, (World.society self law).Returns (perform self ⟨pid, name⟩ .isThere) s
    (.there true) t → ∃ r, law.Evolves pid (s pid) (some r) ∧ law.Evolves pid (some r) (t pid)

section Exactness

variable {pid : Pid}

theorem spares_of_one (hpid : pid.StandsForOne) (o : Operation) : Spares self pid o :=
  fun name _ _ _ _ h => World.society.returns_spare hpid (perform_about self ⟨pid, name⟩ o) h

theorem deliver_null (s : Society) (self pid : Pid) : s.deliver self pid 0 = s := by
  funext q
  cases hq : s q <;> simp [Society.deliver, Resident.receive, hq]

theorem spares_isThere (self pid : Pid) : Spares self pid .isThere := by
  intro name law s r t h q _
  have hprobe : (perform self ⟨pid, name⟩ .isThere).Makes (· = .kill pid 0) :=
    ⟨rfl, fun _ => trivial⟩
  refine World.society.returns_leave (Q := fun _ => True) ?_ hprobe h q trivial
  rintro u _ b v rfl hb x -
  cases b with
  | ok _ =>
    obtain ⟨rfl, -⟩ := hb
    rw [deliver_null]
  | error e => exact congrFun hb.1 x

theorem tellsTrue_of_one (hpid : pid.StandsForOne) : TellsTrue self pid := by
  intro name law s t h
  have hmeets : (World.society self law).Meets (.result fun r u => r = .there true →
      ∃ r, law.Evolves pid (s pid) (some r) ∧ law.Evolves pid (some r) (u pid))
      (perform self ⟨pid, name⟩ .isThere) s := by
    refine fun u hu => ⟨trivial, fun a v ha w hw hr => ?_⟩
    have hbefore := World.society.others_evolve hu pid
    have hafter := World.society.others_evolve hw pid
    cases a with
    | ok _ =>
      obtain ⟨rfl, q, r, hq, hmeant, -⟩ := ha
      obtain ⟨-, rfl⟩ := hmeant.1.eq hpid
      rw [deliver_null, hq] at hafter
      exact ⟨r, hq ▸ hbefore, hafter⟩
    | error e => cases hr
  exact hmeets.returns h rfl

def still : Law := fun _ _ _ => False

theorem still_evolves {q : Pid} {r r' : Option Resident} (h : still.Evolves q r r') : r' = r := by
  induction h with
  | refl => rfl
  | tail _ hr _ => exact hr.elim

def pair (self pid : Pid) : Society := fun q =>
  let group := if pid < -1 then -pid else 1
  if q = self + 1 then some ⟨true, group, true, some (.exited q 7), []⟩
  else if q = self then some ⟨false, group, true, none, []⟩
  else none

theorem pair_child (self pid : Pid) : ∃ r, pair self pid (self + 1) = some r ∧
    r.group = (if pid < -1 then -pid else 1) ∧ r.child = true ∧ r.reachable = true ∧
    r.news = some (.exited (self + 1) 7) ∧ r.received = [] :=
  ⟨_, if_pos rfl, rfl, rfl, rfl, rfl, rfl⟩

theorem pair_self (self pid : Pid) :
    (pair self pid self).map Resident.group = some (if pid < -1 then -pid else 1) := by
  have hne : self ≠ self + 1 := by grind
  simp [pair, hne]

theorem pair_none (hself : 0 < self) (hpid : pid ≤ 0) : pair self pid pid = none := by
  have hchild : pid ≠ self + 1 := by grind
  have hme : pid ≠ self := by grind
  simp [pair, hchild, hme]

theorem pair_meant (hself : 0 < self) (hpid : ¬pid.StandsForOne) {r : Resident}
    (hgroup : r.group = (if pid < -1 then -pid else 1)) :
    (pair self pid).Meant self pid (self + 1) r := by
  refine ⟨?_, fun _ => by grind⟩
  unfold Pid.StandsForOne at hpid
  unfold Society.Addresses
  rw [pair_self, hgroup]
  grind

theorem deliver_pair (hself : 0 < self) (hpid : ¬pid.StandsForOne) {signal : Nat}
    (hsignal : signal ≠ 0) :
    (pair self pid).deliver self pid signal (self + 1) ≠ pair self pid (self + 1) := by
  obtain ⟨r, hr, hgroup, -, hreachable, -, hreceived⟩ := pair_child self pid
  have hmeant := pair_meant hself hpid hgroup
  intro heq
  simp only [Society.deliver, hr, Option.map_some, hmeant, hreachable, and_self, if_true,
    Option.some.injEq, Resident.receive, if_neg hsignal] at heq
  have hlist := congrArg Resident.received heq
  simp [hreceived] at hlist

theorem pair_wait (hself : 0 < self) (hpid : ¬pid.StandsForOne) :
    Society.answers self (pair self pid) (.wait pid) (.ok (.exited (self + 1) 7))
      (Function.update (pair self pid) (self + 1) none) := by
  obtain ⟨r, hr, hgroup, hchild, -, hnews, -⟩ := pair_child self pid
  exact ⟨self + 1, r, hr, (pair_meant hself hpid hgroup).1, hchild, hnews, rfl⟩

theorem pair_kill (hself : 0 < self) (hpid : ¬pid.StandsForOne) (signal : Nat) :
    Society.answers self (pair self pid) (.kill pid signal) (.ok ())
      ((pair self pid).deliver self pid signal) := by
  obtain ⟨r, hr, hgroup, -, hreachable, -⟩ := pair_child self pid
  exact ⟨rfl, self + 1, r, hr, pair_meant hself hpid hgroup, .inl hreachable⟩

theorem not_spares (hself : 0 < self) (hpid : ¬pid.StandsForOne) {o : Operation}
    (ho : o ≠ .isThere) : ¬Spares self pid o := by
  intro hspares
  have hnonpos := Pid.nonpos hpid
  -- In a still society the child of the pair has to be after the operation what it was before.
  have hkept {r : Result} {t : Society}
      (h : (World.society self still).Returns (perform self ⟨pid, none⟩ o) (pair self pid) r t) :
      t (self + 1) = pair self pid (self + 1) :=
    still_evolves (hspares none still _ _ _ h _ (by grind))
  cases o with
  | join strict =>
    have hreturns : (World.society self still).Returns (perform self ⟨pid, none⟩ (.join strict))
        (pair self pid) (.joined ((WaitStatus.exited (self + 1) 7).outcome strict))
        (Function.update (pair self pid) (self + 1) none) := by
      have hother : pid ≠ self := by grind
      rw [perform_join hother]
      exact World.Reaches.call (c := .wait pid) (Except.ok (.exited (self + 1) 7))
        (pair_wait hself hpid) (.head .note .refl)
    obtain ⟨r, hr, -⟩ := pair_child self pid
    simpa [hr] using hkept hreturns
  | signal s =>
    have hreturns : (World.society self still).Returns (perform self ⟨pid, none⟩ (.signal s))
        (pair self pid) (.sent (.ok ())) ((pair self pid).deliver self pid s.number) :=
      World.Reaches.call (c := .kill pid s.number) (Except.ok ())
        (pair_kill hself hpid s.number) (.head .note .refl)
    exact deliver_pair hself hpid (by grind [s.number_range]) (hkept hreturns)
  | isThere => exact ho rfl
  | terminate =>
    have hprobed := pair_kill hself hpid 0
    rw [deliver_null] at hprobed
    have hreturns : (World.society self still).Returns (perform self ⟨pid, none⟩ .terminate)
        (pair self pid) (.sent (.ok ())) ((pair self pid).deliver self pid 15) :=
      World.Reaches.call (c := .kill pid 0) (Except.ok ()) hprobed
        (World.Reaches.call (c := .kill pid 15) (Except.ok ()) (pair_kill hself hpid 15)
          (.head .note .refl))
    exact deliver_pair hself hpid (by decide) (hkept hreturns)

theorem not_tellsTrue (hself : 0 < self) (hpid : ¬pid.StandsForOne) : ¬TellsTrue self pid := by
  intro htrue
  have hreturns : (World.society self still).Returns (perform self ⟨pid, none⟩ .isThere)
      (pair self pid) (.there true) ((pair self pid).deliver self pid 0) :=
    World.Reaches.call (c := .kill pid 0) (Except.ok ()) (pair_kill hself hpid 0) .refl
  obtain ⟨r, hr, -⟩ := htrue none still _ _ hreturns
  rw [pair_none hself (Pid.nonpos hpid)] at hr
  cases still_evolves hr

end Exactness

/-- An operation on a handle leaves every other process to itself, and tells nobody else's presence,
exactly if the number of the handle stands for one process. With such numbers only, what the
operations on the handles for one process come to, and what becomes of that process, is what they
come to without the operations on any other handle. -/
theorem handles_spare_others (self : Pid) (hself : 0 < self) :
    (∀ pid : Pid, (∀ o, o ≠ .isThere → (Spares self pid o ↔ pid.StandsForOne)) ∧
      Spares self pid .isThere ∧ (TellsTrue self pid ↔ pid.StandsForOne)) ∧
    ∀ law s es t, Lives self law s es t → (∀ e ∈ es, e.handle.pid.StandsForOne) → ∀ q,
      (∃ t', Lives self law s (es.filter fun e => e.handle.pid = q) t' ∧ t' q = t q) ∧
      ((∀ e ∈ es, e.handle.pid ≠ q) → law.Evolves q (s q) (t q)) := by
  refine ⟨fun pid => ⟨fun o ho => ?_, spares_isThere self pid, ?_⟩, fun law s es t h hes q => ?_⟩
  · exact ⟨fun h => by_contra fun hpid => not_spares hself hpid ho h, fun h => spares_of_one h o⟩
  · exact ⟨fun h => by_contra fun hpid => not_tellsTrue hself hpid h, tellsTrue_of_one⟩
  · exact ⟨h.purge hes rfl, fun hq => h.unhandled hes hq⟩

/-- A handle for process 2 spares the others, and one for all processes does not. -/
theorem handles_spare_others_of_two : (0 : Pid) < 1 ∧ Spares 1 2 (.join false) ∧
    TellsTrue 1 2 ∧ ¬Spares 1 (-1) (.join false) ∧ ¬TellsTrue 1 (-1) := by
  have hself : (0 : Pid) < 1 := by decide
  have htwo : Pid.StandsForOne 2 := .inl (by decide)
  have hall : ¬Pid.StandsForOne (-1) := by
    rintro (h | h) <;> exact absurd h (by decide)
  obtain ⟨hone, -⟩ := handles_spare_others 1 hself
  exact ⟨hself, ((hone 2).1 (.join false) nofun).mpr htwo, (hone 2).2.2.mpr htwo,
    fun h => hall (((hone (-1)).1 (.join false) nofun).mp h), fun h => hall ((hone (-1)).2.2.mp h)⟩

def bereaved : Kernel.State where
  inodes := #[⟨.directory 0 [], 0o755, 0⟩]
  processes := [{ pid := 1, parent := 0 }, { pid := 2, parent := 1, life := .ended 0x700#32 }]

/-- A join on the handle for all processes takes the status of the child, for which the handle of
the child is then too late. -/
theorem join_takes_status :
    (∃ t, (World.kernel 1).Returns (join 1 ⟨2, none⟩ false).run bereaved (.ok 7) t) ∧
    ∃ t u, (World.kernel 1).Returns (join 1 ⟨-1, none⟩ false).run bereaved (.ok 7) t ∧
      (World.kernel 1).Returns (join 1 ⟨2, none⟩ false).run t
        (.error (.callFailed "waitpid" "on process pid: 2" .ECHILD)) u := by
  have hown : ∃ t, (World.kernel 1).Allows bereaved [⟨.wait 2, .ok (.exited 2 7)⟩] t :=
    ⟨_, .answer (.inl (by cbv)) (.nil _)⟩
  have htaken : ∃ t u, (World.kernel 1).Allows bereaved [⟨.wait (-1), .ok (.exited 2 7)⟩] t ∧
      (World.kernel 1).Allows t [⟨.wait 2, .error .ECHILD⟩] u :=
    ⟨_, _, .answer (.inl (by cbv)) (.nil _), .answer (.inl (by cbv)) (.nil _)⟩
  obtain ⟨t, hown⟩ := hown
  obtain ⟨u, v, htaken, hlate⟩ := htaken
  exact ⟨⟨t, hown.returns (by decide +kernel)⟩, u, v, htaken.returns (by decide +kernel),
    hlate.returns (by decide +kernel)⟩

end ProcessHandle

end OwnedHandles
