import OwnedHandles.Proofs.Collecting
import OwnedHandles.Proofs.Launches

namespace OwnedHandles

def Fate.Over : Fate → Prop
  | running | kept _ => False
  | told _ | discarded _ => True

theorem Fate.Ages.over {before after : Bool} {f g : Fate} (h : Ages before after f g)
    (hf : f.Over) : g.Over := by
  cases h with
  | same => exact hf
  | kept | discarded => exact hf.elim

def Offspring.Gone (s : Offspring) (pid : Pid) : Prop := ∃ f, s.fates pid = some f ∧ f.Over

theorem Offspring.Joined.gone {s t : Offspring} {p : ProcessHandle} {strict : Bool}
    {r : Except Failure Int} {f : Fate} (h : s.Joined p strict r t) (hf : s.fates p.pid = some f) :
    t.Gone p.pid := by
  unfold Joined at h
  rw [hf] at h
  cases f with
  | running =>
    obtain ⟨e, he⟩ := h
    split at he
    · exact ⟨_, he.1, trivial⟩
    · exact ⟨_, he.1, trivial⟩
  | kept e => exact ⟨_, h.1, trivial⟩
  | told e => exact ⟨_, h.1, trivial⟩
  | discarded e => exact ⟨_, h.1, trivial⟩

theorem Offspring.Joined.noChild {s t : Offspring} {p : ProcessHandle} {strict : Bool}
    {r : Except Failure Int} (h : s.Joined p strict r t)
    (hrunning : s.fates p.pid = some .running → s.ignoring = true)
    (hkept : ∀ e, s.fates p.pid ≠ some (.kept e)) : r = .error p.noChild := by
  unfold Joined at h
  split at h
  · obtain ⟨e, he⟩ := h
    rw [if_pos (hrunning ‹_›)] at he
    exact he.2
  · exact absurd ‹_› (hkept _)
  · exact h.2

inductive Fate.Fades : Option Fate → Option Fate → Prop
  | same (f : Option Fate) : Fades f f
  | born : Fades none (some .running)
  | lost {f : Option Fate} (e : Death) : f = none ∨ f = some .running →
      Fades f (some (.discarded e))
  | told (e : Death) : Fades (some (.kept e)) (some (.told e))

theorem Fate.Fades.trans {f g h : Option Fate} (hfg : Fades f g) (hgh : Fades g h) : Fades f h := by
  cases hfg with
  | same => exact hgh
  | born =>
    cases hgh with
    | same => exact .born
    | lost e _ => exact .lost e (.inl rfl)
  | lost e hf =>
    cases hgh with
    | same => exact .lost e hf
    | lost _ hg => simp at hg
  | told e =>
    cases hgh with
    | same => exact .told e
    | lost _ hg => simp at hg

def Call.KeepsIgnoring : Call → Prop
  | .setDisposition n d => n = Signal.SIGCHLD.number → d = .ignored
  | _ => True

theorem Call.Ordinary.keepsIgnoring {c : Call} (hc : c.Ordinary) : c.KeepsIgnoring := by
  cases c <;> first | exact hc.keepsSignals.elim | trivial

namespace Offspring

variable {self : Pid} {s t u : Offspring}

structure Forgets (s t : Offspring) : Prop where
  ignoring : t.ignoring = true
  fates : ∀ pid, Fate.Fades (s.fates pid) (t.fates pid)

namespace Forgets

theorem refl (hs : s.ignoring = true) : s.Forgets s := ⟨hs, fun pid => .same (s.fates pid)⟩

theorem trans (hst : s.Forgets t) (htu : t.Forgets u) : s.Forgets u :=
  ⟨htu.ignoring, fun pid => (hst.fates pid).trans (htu.fates pid)⟩

theorem of_setFate {pid : Pid} {f : Fate} (hs : s.ignoring = true)
    (hf : Fate.Fades (s.fates pid) (some f)) : s.Forgets (s.setFate pid f) := by
  refine ⟨hs, fun q => ?_⟩
  by_cases hq : q = pid
  · subst hq
    simpa using hf
  · simpa [hq] using Fate.Fades.same (s.fates q)

theorem of_move (hs : s.ignoring = true) (h : Move s t) : s.Forgets t := by
  cases h with
  | ends e hrunning =>
    rw [if_pos hs]
    exact of_setFate hs (.lost e (.inr hrunning))

theorem of_same (hs : s.ignoring = true) (hignoring : t.ignoring = s.ignoring)
    (hfates : t.fates = s.fates) : s.Forgets t :=
  ⟨hignoring.trans hs, fun pid => hfates ▸ .same (s.fates pid)⟩

theorem of_calm {c : Call} {a : c.Answer} (hs : s.ignoring = true) (ha : c.raises self s a t)
    (hc : c.Calm) : s.Forgets t := by
  obtain ⟨d, -, rfl⟩ | ⟨n, -, rfl⟩ | rfl := hc.cases ha
  · exact of_same hs rfl rfl
  · exact of_same hs rfl rfl
  · exact refl hs

theorem of_answer {c : Call} {a : c.Answer} (hs : s.ignoring = true) (hc : c.KeepsIgnoring)
    (ha : c.raises self s a t) : s.Forgets t := by
  cases c with
  | fork task =>
    cases a with
    | error e =>
      obtain rfl : t = s := ha
      exact refl hs
    | ok pid =>
      obtain ⟨-, -, hpid, rfl⟩ := ha
      have hborn : s.Forgets (s.setFate pid .running) := of_setFate hs (hpid ▸ .born)
      exact hborn.trans (of_same hs rfl rfl)
  | wait pid =>
    obtain ⟨e, hkept, -, rfl⟩ | ⟨-, -, -, rfl⟩ := ha.2.cases
    · have htold : s.Forgets (s.setFate pid (.told e)) := of_setFate hs (hkept ▸ .told e)
      exact htold.trans (of_same hs rfl rfl)
    · exact of_same hs rfl rfl
  | setDisposition n d =>
    cases a with
    | error e =>
      obtain rfl : t = s := ha
      exact refl hs
    | ok _ =>
      obtain rfl := ha
      refine of_same hs ?_ rfl
      by_cases hn : n = Signal.SIGCHLD.number
      · simp [hn, hc hn, hs]
      · simp [hn]
  | exit => exact a.elim
  | _ => exact of_calm hs ha trivial

theorem kept (h : s.Forgets t) {pid : Pid} {e : Death} (ht : t.fates pid = some (.kept e)) :
    s.fates pid = some (.kept e) := by
  have hpid := h.fates pid
  rw [ht] at hpid
  generalize s.fates pid = f at hpid
  cases hpid with
  | same => rfl

end Forgets

inductive Operation
  | start (e : Executable) (params : List Bytes) (env : Option Environment)
  | startAndForget (e : Executable) (params : List Bytes)
  | capture (e : Executable) (params : List Bytes) (env : Option Environment) (rounds : Nat)
  | system (command : Bytes) (rounds : Nat)
  | redirect (e : Executable) (params : List Bytes) (env : Option Environment)
      (input output error : File) (perm : Mode)
  | join (p : ProcessHandle) (strict : Bool)

namespace Operation

def Result : Operation → Type
  | start .. | startAndForget .. | redirect .. => ProcessHandle
  | capture .. | system .. => String
  | join .. => Int

def perform (self : Pid) : (o : Operation) → Action o.Result
  | start e params env => e.start params env
  | startAndForget e params => e.startAndForget params
  | capture e params env rounds => e.capture self params env rounds
  | system command rounds => Executable.system self command rounds
  | redirect e params env input output error perm =>
    e.redirect params env input output error perm
  | join p strict => p.join self strict

def Apart (self : Pid) : Operation → Prop
  | join p _ => 0 < p.pid ∧ p.pid ≠ self
  | _ => True

def Waits (pid : Pid) : Operation → Prop
  | join p _ => p.pid = pid
  | _ => False

theorem perform_makes (self : Pid) (o : Operation) :
    (o.perform self).run.Makes Call.KeepsIgnoring := by
  have hQ : Program.Compositional fun p => p.Makes Call.KeepsIgnoring :=
    Program.compositional_makes fun _ hc => hc.keepsIgnoring
  have hfork (plan : LaunchPlan) (stdio : ChildStdio) (detached : Bool) :
      (plan.fork stdio detached).run.Makes Call.KeepsIgnoring :=
    LaunchPlan.fork_makes (fun _ => trivial) (fun _ _ => rfl) fun _ _ _ => trivial
  cases o with
  | start e params env => exact hQ.planned fun plan _ => hfork plan _ _
  | startAndForget e params => exact hQ.planned fun plan _ => hfork plan _ _
  | capture e params env rounds => exact hQ.capture self rounds fun plan _ _ => hfork plan _ _
  | system command rounds => exact hQ.capture self rounds fun plan _ _ => hfork plan _ _
  | redirect e params env input output error perm =>
    exact hQ.redirect input output error perm fun plan _ _ => hfork plan _ _
  | join p strict => exact p.join_makes (fun _ => trivial) self strict

theorem forgets {o : Operation} {p q : Program (Except Failure o.Result)}
    (hp : (World.offspring self).Reaches ((o.perform self).run, s) (p, t)) (ht : t.ignoring = true)
    (hq : (World.offspring self).Reaches (p, t) (q, u)) : t.Forgets u := by
  have hcalls : (World.offspring self).Meets
      (.asking (fun _ c => c.KeepsIgnoring) fun _ _ => True) (o.perform self).run s :=
    Contract.asking.making (o.perform_makes self) (fun _ _ h => h) fun _ _ => trivial
  have hrest : (World.offspring self).Meets _ p t := World.Meets.reaches hcalls hp
  exact hrest.keeps (I := t.Forgets) (fun _ _ hm h => h.trans (.of_move h.ignoring hm))
    (fun _ _ _ _ hc ha h => h.trans (.of_answer h.ignoring hc ha)) hq (.refl ht)

end Operation

structure Episode where
  operation : Operation
  result : Except Failure operation.Result

namespace Episode

def handle? : Episode → Option ProcessHandle
  | ⟨.start .., r⟩ | ⟨.startAndForget .., r⟩ | ⟨.redirect .., r⟩ => r.toOption
  | _ => none

/-- A launch that forgets its child has come as far as starting it. -/
def forgets : Episode → Bool
  | ⟨.startAndForget .., r⟩ => Failure.ofFork r
  | _ => false

end Episode

structure Undergoes (s : Offspring) (own : Pid) (x : Episode) (t : Offspring) : Prop where
  ignoring_eq : t.ignoring = (s.ignoring || x.forgets)
  fates : ∀ pid f, ¬x.operation.Waits pid → s.fates pid = some f →
    ∃ g, t.fates pid = some g ∧ Fate.Ages s.ignoring t.ignoring f g
  waited : ∀ pid f, x.operation.Waits pid → s.fates pid = some f → t.Gone pid
  bears : ∀ p, x.handle? = some p → s.Bears own p t

theorem Undergoes.of_launch {x : Episode} {r : Except Failure ProcessHandle} (h : s.Onward t)
    (hignoring : t.ignoring = (s.ignoring || x.forgets)) (hwaits : ∀ pid, ¬x.operation.Waits pid)
    (hhandle : x.handle? = r.toOption) (hbears : ∀ p, r = .ok p → s.Bears self p t) :
    s.Undergoes self x t where
  ignoring_eq := hignoring
  fates pid f _ := h.fates pid f
  waited pid _ hpid := (hwaits pid hpid).elim
  bears p hp := by
    cases r with
    | ok q => exact hbears p (congrArg Except.ok (Option.some.inj (hhandle.symm.trans hp)))
    | error f => cases hhandle.symm.trans hp

theorem Captures.undergoes {x : Episode} {command : String} {r : Except Failure String}
    (h : s.Captures command r t) (hforgets : x.forgets = false)
    (hwaits : ∀ pid, ¬x.operation.Waits pid) (hhandle : x.handle? = none) :
    s.Undergoes self x t where
  ignoring_eq := by simpa [hforgets] using h.ignoring_eq
  fates pid f _ := h.onward.fates pid f
  waited pid _ hpid := (hwaits pid hpid).elim
  bears p hp := by cases hhandle.symm.trans hp

theorem Joins.undergoes {p : ProcessHandle} {strict : Bool} {r : Except Failure Int}
    (h : s.Joins p strict r t) : s.Undergoes self ⟨.join p strict, r⟩ t where
  ignoring_eq := by simpa [Episode.forgets] using h.ignoring_eq
  fates pid f hpid := h.fates pid f (Ne.symm hpid)
  waited pid f hpid hf := by
    subst hpid
    exact h.joined.gone hf
  bears := nofun

theorem Operation.perform_raises {o : Operation} (ho : o.Apart self) :
    (World.offspring self).Meets (.raising self True fun r => s.Undergoes self ⟨o, r⟩)
      (o.perform self).run s := by
  cases o with
  | start e params env =>
    refine (e.planned_raises params env .inherit false).returning fun r t h => ?_
    obtain ⟨honward, -, hignoring, hbears⟩ := h
    exact .of_launch honward hignoring (fun _ => id) rfl hbears
  | startAndForget e params =>
    refine (e.planned_raises params none .inherit true).returning fun r t h => ?_
    obtain ⟨honward, -, hignoring, hbears⟩ := h
    exact .of_launch honward hignoring (fun _ => id) rfl hbears
  | capture e params env rounds =>
    refine (e.capture_raises params env fun _ => trivial).returning fun r t h => ?_
    exact h.undergoes rfl (fun _ => id) rfl
  | system command rounds =>
    refine (Executable.shell.capture_raises _ none fun _ => trivial).returning fun r t h => ?_
    exact h.undergoes rfl (fun _ => id) rfl
  | redirect e params env input output error perm =>
    refine (e.redirect_raises params env input output error perm).returning fun r t h => ?_
    obtain ⟨⟨ds, hst⟩, hbears⟩ := h
    refine .of_launch hst.toOnward ?_ (fun _ => id) rfl hbears
    exact hst.ignoring_eq.trans (Bool.or_false _).symm
  | join p strict => exact (p.join_raises strict ho.1 ho.2).returning fun r t h => h.undergoes

inductive Runs (self : Pid) : Offspring → List Episode → Offspring → Prop
  | nil (s : Offspring) : Runs self s [] s
  | cons {s t u : Offspring} {x : Episode} {es : List Episode} : x.operation.Apart self →
      (World.offspring self).Returns (x.operation.perform self).run s x.result t →
      Runs self t es u → Runs self s (x :: es) u

theorem Episode.undergoes {x : Episode} (hx : x.operation.Apart self)
    (hreturns : (World.offspring self).Returns (x.operation.perform self).run s x.result t) :
    s.Undergoes self x t :=
  (Operation.perform_raises hx).returns hreturns

theorem Undergoes.gone {x : Episode} {pid : Pid} (h : s.Undergoes self x t) (hs : s.Gone pid) :
    t.Gone pid := by
  obtain ⟨f, hf, hover⟩ := hs
  by_cases hpid : x.operation.Waits pid
  · exact h.waited pid f hpid hf
  · obtain ⟨g, hg, hages⟩ := h.fates pid f hpid hf
    exact ⟨g, hg, hages.over hover⟩

namespace Runs

variable {es : List Episode} {pid : Pid}

theorem split {fs : List Episode} (h : Runs self s (es ++ fs) u) :
    ∃ t, Runs self s es t ∧ Runs self t fs u := by
  induction es generalizing s with
  | nil => exact ⟨s, .nil s, h⟩
  | cons x es ih =>
    cases h with
    | cons hx hreturns hrest =>
      obtain ⟨t, ht, hu⟩ := ih hrest
      exact ⟨t, .cons hx hreturns ht, hu⟩

theorem ignoring_eq (h : Runs self s es t) :
    t.ignoring = (s.ignoring || es.any Episode.forgets) := by
  induction h with
  | nil => simp
  | cons hx hreturns _ ih => simp [ih, (Episode.undergoes hx hreturns).ignoring_eq, Bool.or_assoc]

theorem ignoring (h : Runs self s es t) (hs : s.ignoring = true) : t.ignoring = true := by
  simp [h.ignoring_eq, hs]

theorem fates (h : Runs self s es t) (hpid : ∀ x ∈ es, ¬x.operation.Waits pid) {f : Fate}
    (hf : s.fates pid = some f) :
    ∃ g, t.fates pid = some g ∧ Fate.Ages s.ignoring t.ignoring f g := by
  induction h generalizing f with
  | nil => exact ⟨f, hf, .same f⟩
  | cons hx hreturns hrest ih =>
    have hstep := Episode.undergoes hx hreturns
    rw [List.forall_mem_cons] at hpid
    obtain ⟨g, hg, hfg⟩ := hstep.fates pid f hpid.1 hf
    obtain ⟨k, hk, hgk⟩ := ih hpid.2 hg
    exact ⟨k, hk, hfg.trans (fun h => by simp [hstep.ignoring_eq, h]) hrest.ignoring hgk⟩

theorem gone (h : Runs self s es t) (hs : s.Gone pid) : t.Gone pid := by
  induction h with
  | nil => exact hs
  | cons hx hreturns _ ih => exact ih ((Episode.undergoes hx hreturns).gone hs)

theorem forgets (h : Runs self s es t) (hs : s.ignoring = true) : s.Forgets t := by
  induction h with
  | nil => exact .refl hs
  | cons hx hreturns _ ih =>
    have hstep := Operation.forgets .refl hs hreturns
    exact hstep.trans (ih hstep.ignoring)

end Runs

/-- Whoever waits for the child is told in the end that there is no such child. -/
def Lost (self : Pid) (s : Offspring) (pid : Pid) : Prop :=
  ∀ (p : ProcessHandle) (strict : Bool), p.pid = pid →
    (World.offspring self).Attains (p.join self strict).run s fun r _ => r = .error p.noChild

theorem lost_of_unkept {pid : Pid} (hpos : 0 < pid) (hself : pid ≠ self)
    (hrunning : s.fates pid = some .running → s.ignoring = true)
    (hkept : ∀ e, s.fates pid ≠ some (.kept e)) : s.Lost self pid := by
  rintro p strict rfl
  exact Contract.raising.attains ((p.join_raises strict hpos hself).returning fun _ _ h =>
    h.joined.noChild hrunning hkept)

theorem Gone.lost {pid : Pid} (h : s.Gone pid) (hpos : 0 < pid) (hself : pid ≠ self) :
    s.Lost self pid := by
  obtain ⟨f, hf, hover⟩ := h
  refine lost_of_unkept hpos hself (fun h => ?_) fun e h => ?_
  · obtain rfl := Option.some.inj (hf.symm.trans h)
    exact hover.elim
  · obtain rfl := Option.some.inj (hf.symm.trans h)
    exact hover.elim

theorem Runs.awaited {es : List Episode} {pid : Pid} (h : Runs self s es t) (hs : s.Awaited pid)
    (hpid : ∀ x ∈ es, ¬x.operation.Waits pid) (ht : t.ignoring = false) : t.Awaited pid := by
  have hbefore : s.ignoring = false := by
    by_contra hignoring
    cases (h.ignoring (by simpa using hignoring)).symm.trans ht
  obtain ⟨f, hf, hages⟩ := hs
  obtain ⟨g, hg, hfg⟩ := h.fates hpid hf
  rw [hbefore] at hages hfg
  rw [ht] at hfg
  refine ⟨g, hg, ?_⟩
  rw [ht]
  exact hages.trans id id hfg

end Offspring

end OwnedHandles
