import OwnedHandles.Proofs.Exchange
import OwnedHandles.Proofs.Runs
import OwnedHandles.Proofs.Wiring

namespace OwnedHandles

def Table.ReadsFrom (s : Table) (fd : Fd) (o : OutputStream) : Prop :=
  ∃ closeOnExec, s.entries fd = some ⟨.pipe o.pipe .read, closeOnExec⟩

def Call.ReadsNothing : Call → Prop
  | .read .. => False
  | _ => True

def Call.Drains (s : Table) : Call → Prop
  | .read fd count => 0 < count ∧ s.HoldsNoWriteEnd ∧ ∃ o, s.ReadsFrom fd o
  | _ => True

theorem Call.ReadsNothing.drains {c : Call} (hc : c.ReadsNothing) {s : Table} : c.Drains s := by
  cases c <;> first | exact hc.elim | trivial

section Tables

open Contract (asking)

variable {given : Fd → Option Bool} {s : Table} {ro re : Fd}

theorem Executable.startOnPipes_drains (plan : LaunchPlan) :
    World.tables.Meets (asking Call.Drains fun started t => t.Feeds started.2)
      (startOnPipes plan).run (.before given) := by
  have hreads : (startOnPipes plan).run.Makes Call.ReadsNothing :=
    startOnPipes_makes trivial (fun _ => trivial) (fun _ => trivial) fun _ _ => trivial
  have hcalls : World.tables.Meets (asking Call.Drains fun _ _ => True) (startOnPipes plan).run
      (.before given) := asking.making hreads (fun _ _ hc => hc.drains) fun _ _ => trivial
  exact ((startOnPipes_tables plan).withCalls hcalls).weaken (fun _ _ h => h.2) (fun _ _ h => h)
    (fun _ _ h => h) fun _ h => h

theorem Descriptor.readOn_drains {d : Descriptor} {fd : Fd} {o : OutputStream} (hd : d.fd = some fd)
    (hfd : s.ReadsFrom fd o) (hends : s.HoldsNoWriteEnd) (rounds : Nat) (content : List Bytes) :
    World.tables.Meets (asking Call.Drains fun _ t => t = s) (d.readOn rounds content).run s := by
  have hmakes : (d.readOn rounds content).run.Makes (· = .read fd Limits.readChunk) :=
    readOn_makes (fun fd' hd' => by rw [Option.some.inj (hd.symm.trans hd')]) rounds content
  refine hmakes.meets (fun _ ht => (World.others_alone _).mp ht) (fun c a t hc ha => ?_)
    (fun c hc => ?_) (fun _ _ _ => rfl) (fun _ => trivial) trivial
  · subst hc
    exact ha
  · subst hc
    exact ⟨by decide, hends, o, hfd⟩

theorem StreamEnds.drain_drains {e : StreamEnds} (hin : e.stdin.fd = none)
    (hout : e.stdout.fd = some ro) (herr : e.stderr.fd = some re) (hreads : s.ReadsOn ro re)
    (hends : s.HoldsNoWriteEnd) (rounds : Nat) :
    World.tables.Meets (asking Call.Drains fun _ _ => True) (e.drain rounds).run s := by
  have hclosed : e.stdin.closeSafe = .done e.stdin := by
    simp [Descriptor.closeSafe, Descriptor.close, hin]
  have hleave {α : Type} {p : Action α}
      (hp : World.tables.Meets (asking Call.Drains fun _ t => t = s) p.run s) :
      World.tables.Meets (asking Call.Drains fun _ t => t = s) (p.onLeave e.drop).run s :=
    asking.onLeave hp (e.drop_makes fun _ => trivial)
      (fun _ _ hc => Call.ReadsNothing.drains hc) fun _ _ _ h ho =>
        (World.others_alone _).mp ho ▸ h
  unfold drain
  rw [hclosed]
  refine (World.meets_lift_bind _ _ _).mpr (World.alone_done ?_)
  apply asking.bind (hleave (Descriptor.readOn_drains hout (o := .stdout) ⟨_, hreads.stdout⟩ hends
    rounds []))
  intro out t ht
  subst ht
  apply asking.bind (hleave (Descriptor.readOn_drains herr (o := .stderr) ⟨_, hreads.stderr⟩ hends
    rounds []))
  intro err t ht
  have hmakes : (closeCaptured [e.stdout, e.stderr]).Makes Call.ReadsNothing :=
    closeCaptured_makes (fun _ => trivial) _
  exact asking.making (Action.makes_bind (Action.makes_lift hmakes) fun _ => trivial)
    (fun _ _ hc => hc.drains) fun _ _ => trivial

theorem Executable.capture_drains (e : Executable) (self : Pid) (params : List Bytes)
    (env : Option Environment) (rounds : Nat) :
    World.tables.Meets (asking Call.Drains fun _ _ => True) (e.capture self params env rounds).run
      (.before given) := by
  refine asking.bind (P := fun _ t => t = .before given) ?_ fun plan t ht => ?_
  · unfold plan
    rw [Action.run_ofExcept]
    exact World.alone_done fun _ _ => rfl
  subst ht
  apply asking.bind (startOnPipes_drains plan)
  intro started t ht
  obtain ⟨process, parent⟩ := started
  obtain ⟨wi, ro, re, hwi, hro, hre, hreads, hends⟩ := ht
  dsimp only
  rw [Descriptor.lift_closeSafe_bind]
  refine (World.meets_lift_bind _ _ _).mpr (Descriptor.closeSafe_tables hwi
    (fun _ _ => trivial) fun _ => ?_)
  have hjoin : (process.join self false).run.Makes fun c => c.KeepsEntries ∧ c.ReadsNothing :=
    process.join_makes (fun _ => ⟨trivial, trivial⟩) self false
  let rest : StreamEnds := { parent with stdin := parent.stdin.closed }
  refine asking.attempt (hjoin.meets (fun _ hu => (World.others_alone _).mp hu)
    (fun _ _ _ hc ha => hc.1.frame ha) (fun _ hc => hc.2.drains) (fun _ => rfl)
    (fun _ => trivial) trivial) (rest.drop_makes fun _ => trivial)
    (fun _ _ hc => Call.ReadsNothing.drains hc) fun ending t ht => ?_
  subst ht
  have hdrain := StreamEnds.drain_drains (e := rest) rfl hro hre hreads hends rounds
  exact asking.bind hdrain fun streams _ _ =>
    asking.making (conclude_makes plan process ending streams.1 streams.2)
      (fun _ _ hc => Call.ReadsNothing.drains hc) fun _ _ => trivial

end Tables

inductive Awaited
  | no | interrupted | told
  deriving DecidableEq

/-- A parent, what is in each pipe, and the processes that live of those that come from its child,
each with the pipes that it can write to. The child itself is process 0. -/
structure Household where
  table : Table
  queue : Nat → Bytes
  living : Nat → Option (Nat → Prop)
  awaited : Awaited

namespace Household

def start (given : Fd → Option Bool) : Household :=
  ⟨.before given, fun _ => [], fun _ => none, .no⟩

def setQueue (s : Household) (k : Nat) (bs : Bytes) : Household :=
  { s with queue := fun n => if n = k then bs else s.queue n }

def setLiving (s : Household) (p : Nat) (pipes : Option (Nat → Prop)) : Household :=
  { s with living := fun q => if q = p then pipes else s.living q }

@[simp] theorem setLiving_living (s : Household) (p q : Nat) (pipes : Option (Nat → Prop)) :
    (s.setLiving p pipes).living q = if q = p then pipes else s.living q := rfl

def Released (s : Household) (k : Nat) : Prop := ∀ p pipes, s.living p = some pipes → ¬pipes k

/-- What the processes do. A new one can write to what its parent can write to. -/
inductive Move (capacity : Nat) : Household → Household → Prop
  | starts {s : Household} {p q : Nat} {pipes : Nat → Prop} :
      s.living p = some pipes → q ≠ 0 → s.living q = none →
      Move capacity s (s.setLiving q (some pipes))
  | closes {s : Household} {p k : Nat} {pipes : Nat → Prop} :
      s.living p = some pipes → Move capacity s (s.setLiving p (some fun n => pipes n ∧ n ≠ k))
  | writes {s : Household} {p k : Nat} {pipes : Nat → Prop} {bs : Bytes} :
      s.living p = some pipes → pipes k → (s.queue k).length + bs.length ≤ capacity →
      Move capacity s (s.setQueue k (s.queue k ++ bs))
  | ends {s : Household} (p : Nat) : Move capacity s (s.setLiving p none)

end Household

/-- How the system answers the parent. A child begins with what its parent has open; a wait is
interrupted, or over when the child is gone; a read of a pipe gives a part of what is there, or the
end when nothing is there and nobody can write to it any more. -/
def Call.inHousehold (s : Household) : (c : Call) → c.Answer → Household → Prop
  | .fork _, .ok _, t =>
      t = { s.setLiving 0 (some fun k => s.table.Has k .write) with awaited := .no }
  | .wait _, a, t => (a = .error .EINTR ∧ t = { s with awaited := .interrupted }) ∨
      (s.living 0 = none ∧ t = { s with awaited := .told })
  | .read fd count, .ok chunk, t => ∃ k b, s.table.entries fd = some ⟨.pipe k .read, b⟩ ∧
      ((chunk ≠ [] ∧ chunk.length ≤ count ∧ ∃ later, s.queue k = chunk ++ later ∧
          t = s.setQueue k later) ∨
        (chunk = [] ∧ s.queue k = [] ∧ s.Released k ∧ ¬s.table.Has k .write ∧ t = s))
  | c, a, t => ∃ table, c.rewires s.table a table ∧ t = { s with table }

def World.household (capacity : Nat) : World Household :=
  ⟨Call.inHousehold, Household.Move capacity⟩

namespace Household

variable {s t : Household} {capacity k : Nat}

theorem Move.table_eq (h : Move capacity s t) : t.table = s.table := by
  cases h <;> rfl

theorem Move.awaited_eq (h : Move capacity s t) : t.awaited = s.awaited := by
  cases h <;> rfl

theorem Released.setLiving {p : Nat} {pipes : Option (Nat → Prop)} (hs : s.Released k)
    (hpipes : ∀ ends, pipes = some ends → ¬ends k) : (s.setLiving p pipes).Released k := by
  intro q ends hq
  rw [setLiving_living] at hq
  split at hq
  · exact hpipes ends hq
  · exact hs q ends hq

theorem Move.released (h : Move capacity s t) (hs : s.Released k) : t.Released k := by
  cases h with
  | @starts p q pipes hp _ _ => exact hs.setLiving fun _ h => Option.some.inj h ▸ hs p pipes hp
  | @closes p n pipes hp =>
    exact hs.setLiving fun _ h => Option.some.inj h ▸ fun h => hs p pipes hp h.1
  | writes _ _ _ => exact hs
  | ends p => exact hs.setLiving nofun

theorem Move.childless (h : Move capacity s t) (hs : s.living 0 = none) : t.living 0 = none := by
  cases h with
  | starts _ hq _ => simpa [hq.symm] using hs
  | @closes p _ _ hp =>
    have hne : 0 ≠ p := fun h => by simp [← h, hs] at hp
    simpa [hne] using hs
  | writes _ _ _ => exact hs
  | ends p => simp [hs]

def Answers (s : Household) (fd count : Nat) : Prop :=
  ∃ chunk t, Call.inHousehold s (.read fd count) (.ok chunk) t

theorem answers_iff {fd count : Nat} {o : OutputStream} (hfd : s.table.ReadsFrom fd o)
    (hcount : 0 < count) (hends : s.table.HoldsNoWriteEnd) :
    s.Answers fd count ↔ s.queue o.pipe ≠ [] ∨ s.Released o.pipe := by
  obtain ⟨b, hentry⟩ := hfd
  constructor
  · rintro ⟨chunk, t, k, b', hentry', hread⟩
    obtain ⟨rfl, -⟩ : o.pipe = k ∧ b = b' := by simpa using hentry.symm.trans hentry'
    obtain ⟨hchunk, -, later, hqueue, -⟩ | ⟨-, -, hreleased, -⟩ := hread
    · exact .inl (by simp [hqueue, hchunk])
    · exact .inr hreleased
  · intro h
    match hqueue : s.queue o.pipe with
    | byte :: later =>
      exact ⟨[byte], _, o.pipe, b, hentry, .inl ⟨List.cons_ne_nil _ _, hcount, later, hqueue, rfl⟩⟩
    | [] =>
      have hreleased := h.resolve_left (not_not_intro hqueue)
      have hhas : ¬s.table.Has o.pipe .write := fun ⟨n, b, hn⟩ => hends n _ b hn
      exact ⟨[], s, o.pipe, b, hentry, .inr ⟨rfl, hqueue, hreleased, hhas, rfl⟩⟩

end Household

section Answers

variable {s t : Household} {c : Call} {a : c.Answer} {capacity : Nat}

theorem Call.inHousehold_frame (h : c.inHousehold s a t) : c.rewires s.table a t.table ∧
    (c.SparesChildren → t.living = s.living ∧ t.awaited = s.awaited) := by
  cases c with
  | fork task =>
    cases a with
    | ok pid =>
      obtain rfl := h
      exact ⟨rfl, False.elim⟩
    | error e =>
      obtain ⟨table, htable, rfl⟩ := h
      exact ⟨htable, False.elim⟩
  | wait pid =>
    obtain ⟨-, rfl⟩ | ⟨-, rfl⟩ := h
    · exact ⟨rfl, False.elim⟩
    · exact ⟨rfl, False.elim⟩
  | read fd count =>
    cases a with
    | ok chunk =>
      obtain ⟨k, b, -, ⟨-, -, later, -, rfl⟩ | ⟨-, -, -, -, rfl⟩⟩ := h
      · exact ⟨rfl, fun _ => ⟨rfl, rfl⟩⟩
      · exact ⟨rfl, fun _ => ⟨rfl, rfl⟩⟩
    | error e =>
      obtain ⟨table, htable, rfl⟩ := h
      exact ⟨htable, fun _ => ⟨rfl, rfl⟩⟩
  | _ =>
    obtain ⟨table, htable, rfl⟩ := h
    exact ⟨htable, fun _ => ⟨rfl, rfl⟩⟩

theorem World.household_refines (capacity : Nat) (P : Table → Call → Prop) :
    (World.household capacity).Refines World.tables (fun t s => t.table = s) P where
  moves hR hm := ⟨_, Others.refl _ _, hm.table_eq.trans hR⟩
  answers hR _ ha := ⟨_, hR ▸ (Call.inHousehold_frame ha).1, rfl⟩

def Household.GoneIfTold (s : Household) : Prop := s.awaited = .told → s.living 0 = none

theorem Household.GoneIfTold.move (hs : s.GoneIfTold) (h : Household.Move capacity s t) :
    t.GoneIfTold := fun ht => h.childless (hs (h.awaited_eq ▸ ht))

theorem Household.GoneIfTold.answer (hs : s.GoneIfTold) (h : c.inHousehold s a t) :
    t.GoneIfTold := by
  intro ht
  cases c with
  | fork task =>
    cases a with
    | ok pid =>
      obtain rfl := h
      cases ht
    | error e =>
      obtain ⟨table, -, rfl⟩ := h
      exact hs ht
  | wait pid =>
    obtain ⟨-, rfl⟩ | ⟨hgone, rfl⟩ := h
    · cases ht
    · exact hgone
  | _ =>
    obtain ⟨hliving, hawaited⟩ := (Call.inHousehold_frame h).2 trivial
    rw [hliving]
    exact hs (hawaited ▸ ht)

end Answers

def Call.Follows (s : Household) (c : Call) : Prop :=
  (∀ fd count, c = .read fd count → s.awaited ≠ .no) ∧ (s.awaited ≠ .no → c.SparesChildren)

def Call.Prepares : Call → Prop
  | .read .. | .wait _ => False
  | _ => True

section Order

open Contract (asking)

variable {s t : Household} {c : Call} {a : c.Answer} {capacity : Nat} {α : Type}
  {P : α → Household → Prop}

theorem Call.Prepares.awaited (hc : c.Prepares) (h : c.inHousehold s a t)
    (hs : s.awaited = .no) : t.awaited = .no := by
  cases c with
  | read fd count => exact hc.elim
  | wait pid => exact hc.elim
  | fork task =>
    cases a with
    | ok pid =>
      obtain rfl := h
      rfl
    | error e =>
      obtain ⟨table, -, rfl⟩ := h
      exact hs
  | _ => exact ((Call.inHousehold_frame h).2 trivial).2.trans hs

theorem Program.Makes.preparing {q : Contract Household α} {p : Program α}
    (hp : p.Makes Call.Prepares) (hcalls : ∀ t c, Call.Follows t c → q.calls t c)
    (hreturns : ∀ a t, t.awaited = .no → q.returns a t) (hbreaks : ∀ m t, q.breaks m t)
    (hgivesUp : ∀ t, q.givesUp t) (hs : s.awaited = .no) :
    (World.household capacity).Meets q p s := by
  refine hp.meets_keeping (I := fun t => t.awaited = .no) (fun _ _ hm h => hm.awaited_eq.trans h)
    (fun _ _ _ _ hc ha h => hc.awaited ha h)
    (fun t c ht hc => hcalls t c ⟨?_, fun h => (h ht).elim⟩) hreturns (fun m t _ => hbreaks m t)
    (fun t _ => hgivesUp t) hs
  rintro fd count rfl
  exact hc.elim

theorem Program.Makes.following {q : Contract Household α} {p : Program α}
    (hp : p.Makes Call.SparesChildren) (hcalls : ∀ t c, Call.Follows t c → q.calls t c)
    (hreturns : ∀ a t, t.awaited ≠ .no → q.returns a t) (hbreaks : ∀ m t, q.breaks m t)
    (hgivesUp : ∀ t, q.givesUp t) (hs : s.awaited ≠ .no) :
    (World.household capacity).Meets q p s :=
  hp.meets_keeping (I := fun t => t.awaited ≠ .no) (fun _ _ hm h => hm.awaited_eq ▸ h)
    (fun _ _ _ _ hc ha h => ((Call.inHousehold_frame ha).2 hc).2 ▸ h)
    (fun t c ht hc => hcalls t c ⟨fun _ _ _ => ht, fun _ => hc⟩) hreturns
    (fun m t _ => hbreaks m t) (fun t _ => hgivesUp t) hs

theorem ProcessHandle.join_follows (p : ProcessHandle) (self : Pid) (strict : Bool)
    (hs : s.awaited = .no) :
    (World.household capacity).Meets ⟨Call.Follows, fun _ t => t.awaited ≠ .no, fun _ _ => True,
      fun _ => True⟩ (p.join self strict).run s := by
  unfold join
  split
  · exact fun _ _ => trivial
  · refine (World.meets_ask_bind _ _ _).mpr fun t ht => ?_
    have ht : t.awaited = .no :=
      ht.keeps (P := fun t => t.awaited = .no)
        (fun _ _ hm h => (Household.Move.awaited_eq hm).trans h) hs
    refine ⟨⟨nofun, fun h => (h ht).elim⟩, fun a u ha => ?_⟩
    have hu : u.awaited ≠ .no := by
      obtain ⟨-, rfl⟩ | ⟨-, rfl⟩ := ha <;> nofun
    refine Program.Makes.following ?_ (fun _ _ h => h) (fun _ _ h => h) (fun _ _ => trivial)
      (fun _ => trivial) hu
    cases a with
    | error e => trivial
    | ok status => exact Action.makes_bind trivial fun _ => Action.makes_ofExcept _

theorem Executable.capture_follows (e : Executable) (self : Pid) (params : List Bytes)
    (env : Option Environment) (rounds : Nat) (given : Fd → Option Bool) :
    (World.household capacity).Meets (asking Call.Follows fun _ _ => True)
      (e.capture self params env rounds).run (.start given) := by
  have hprepare {α : Type} {p : Action α} {s : Household} (hp : p.run.Makes Call.Prepares)
      (hs : s.awaited = .no) : (World.household capacity).Meets
        (asking Call.Follows fun _ t => t.awaited = .no) p.run s :=
    hp.preparing (fun _ _ h => h) (fun _ _ h _ _ => h) (fun _ _ => trivial) (fun _ => trivial) hs
  apply asking.bind (hprepare (Action.makes_ofExcept _) rfl)
  intro plan t ht
  apply asking.bind (hprepare (startOnPipes_makes trivial (fun _ => trivial) (fun _ => trivial)
    fun _ _ => trivial) ht)
  intro started t ht
  have hclose : started.2.stdin.closeSafe.Makes Call.Prepares :=
    Descriptor.closeSafe_makes (fun _ => trivial) _
  refine (World.meets_lift_bind _ _ _).mpr (hclose.preparing (fun _ _ h => h)
    (fun stdin t ht => ?_) (fun _ _ => trivial) (fun _ => trivial) ht)
  let rest : StreamEnds := { started.2 with stdin }
  have hdrop : rest.drop.Makes fun c => ∀ s, c.Follows s :=
    rest.drop_makes fun _ _ => ⟨nofun, fun _ => trivial⟩
  refine asking.attempt (started.1.join_follows self false ht) hdrop (fun s _ hc => hc s)
    fun ending u hu => ?_
  exact (drain_conclude_makes (fun _ => trivial) (fun _ _ => trivial) rest rounds plan started.1
    ending).following (fun _ _ h => h) (fun _ _ _ _ _ => trivial) (fun _ _ => trivial)
    (fun _ => trivial) hu

end Order

/-- At every read of the action its parent can write to no pipe and has waited, and if it was told
its child is gone: the read is answered as long as there is something to read, and otherwise
exactly when no process that the child has left behind can write to that stream. Once nobody can,
every read of the stream is answered from then on. -/
def Action.ReadsBehindChild {α : Type} (p : Action α) (given : Fd → Option Bool)
    (capacity : Nat) : Prop :=
  ∀ fd count next u, (World.household capacity).Reaches (p.run, .start given)
      (.call (.read fd count) next, u) →
    (u.table.HoldsNoWriteEnd ∧ u.awaited ≠ .no ∧ (u.awaited = .told → u.living 0 = none) ∧
      ∃ o : OutputStream, u.table.ReadsFrom fd o ∧
        (u.Answers fd count ↔ u.queue o.pipe ≠ [] ∨ u.Released o.pipe)) ∧
    ∀ fd' count' next' v, (World.household capacity).Reaches (.call (.read fd count) next, u)
        (.call (.read fd' count') next', v) →
      ∀ o : OutputStream, v.table.ReadsFrom fd' o → u.Released o.pipe → v.Answers fd' count'

theorem Action.readsBehindChild_of_meets {α : Type} {p : Action α} {given : Fd → Option Bool}
    {capacity : Nat} (hdrains : World.tables.Meets (.asking Call.Drains fun _ _ => True) p.run
      (.before given))
    (hfollows : (World.household capacity).Meets (.asking Call.Follows fun _ _ => True) p.run
      (.start given)) : p.ReadsBehindChild given capacity := by
  have hread {fd count next u} (hu : (World.household capacity).Reaches (p.run, .start given)
      (.call (.read fd count) next, u)) :
      0 < count ∧ u.table.HoldsNoWriteEnd ∧ ∃ o, u.table.ReadsFrom fd o := by
    obtain ⟨table, rfl, h⟩ := (hdrains.refine (World.household_refines capacity _) rfl).calls hu
    exact h
  intro fd count next u hu
  obtain ⟨hcount, hends, o, ho⟩ := hread hu
  have hawaited : u.awaited ≠ .no := (hfollows.calls hu).1 fd count rfl
  refine ⟨⟨hends, hawaited, ?_, o, ho, Household.answers_iff ho hcount hends⟩, ?_⟩
  · have hgone : u.GoneIfTold := hfollows.keeps (fun _ _ hm h => h.move hm)
      (fun _ _ _ _ _ ha h => h.answer ha) hu nofun
    exact hgone
  · intro fd' count' next' v hv o' ho' hreleased
    obtain ⟨hcount', hends', -⟩ := hread (hu.trans hv)
    refine (Household.answers_iff ho' hcount' hends').mpr (.inr ?_)
    have hkept : v.awaited ≠ .no ∧ v.Released o'.pipe := by
      have hrest : (World.household capacity).Meets _ _ u := World.Meets.reaches hfollows hu
      refine hrest.keeps (I := fun v => v.awaited ≠ .no ∧ v.Released o'.pipe) ?_ ?_ hv
        ⟨hawaited, hreleased⟩
      · exact fun _ _ hm h => ⟨Household.Move.awaited_eq hm ▸ h.1, Household.Move.released hm h.2⟩
      · intro s c a t hc ha h
        obtain ⟨hliving, hsame⟩ := (Call.inHousehold_frame ha).2 (hc.2 h.1)
        exact ⟨hsame ▸ h.1, fun p pipes hp => h.2 p pipes (hliving ▸ hp)⟩
    exact hkept.2

/-- Whatever processes the child of a capture starts, and in whatever order they end, its parent
reads only when no end of the pipes is left to it or, unless the wait was interrupted, to the
child. -/
theorem Executable.captures_read_behind_child (given : Fd → Option Bool) (capacity : Nat) :
    (∀ (e : Executable) self params env rounds,
      (e.capture self params env rounds).ReadsBehindChild given capacity) ∧
    ∀ self command rounds, (system self command rounds).ReadsBehindChild given capacity :=
  ⟨fun e self params env rounds => Action.readsBehindChild_of_meets
      (e.capture_drains self params env rounds) (e.capture_follows self params env rounds given),
    fun self _ rounds => Action.readsBehindChild_of_meets
      (shell.capture_drains self _ none rounds) (shell.capture_follows self _ none rounds given)⟩

/-- A shell that has started a process in the background and is gone: the first read of its output
waits for that process. -/
theorem Executable.read_waits_for_descendant : ∃ next u,
    (World.household 65536).Reaches ((shell.capture 1 [] none 1).run, .start fun _ => none)
        (.call (.read 2 4096) next, u) ∧
      u.awaited = .told ∧ (∃ pipes, u.living 1 = some pipes ∧ pipes OutputStream.stdout.pipe) ∧
      ¬u.Answers 2 4096 := by
  let task : ChildTask :=
    { plan := { arguments := ⟨[Bytes.ofString "/bin/sh"]⟩, environment := none
                commandLine := Bytes.ofString "/bin/sh" }
      stdio := .redirect 0 3 5, detached := false, mask := 0 }
  let answers : List Answered :=
    [⟨.makePipe, .ok (0, 1)⟩, ⟨.makePipe, .ok (2, 3)⟩, ⟨.makePipe, .ok (4, 5)⟩,
      ⟨.setMask .full, .ok 0⟩, ⟨.fork task, .ok 7⟩, ⟨.setMask 0, .ok .full⟩,
      ⟨.close 0, .ok ()⟩, ⟨.close 3, .ok ()⟩, ⟨.close 5, .ok ()⟩, ⟨.close 1, .ok ()⟩,
      ⟨.wait 7, .ok (.exited 7 0)⟩]
  have hcall : ((shell.capture 1 [] none 1).run.follow answers).bind Program.call? =
      some (.read 2 4096) := by
    decide +kernel
  let piped : Table := (((Table.before fun _ => none).addPipe 0 1).addPipe 2 3).addPipe 4 5
  let held (k : Nat) : Prop := piped.Has k .write
  let forked := ((Household.start fun _ => none).setLiving 0 (some held)).setLiving 1 (some held)
  let u : Household :=
    { forked.setLiving 0 none with
      table := (((piped.remove 0).remove 3).remove 5).remove 1, awaited := .told }
  have hallowed : (World.household 65536).Allows (.start fun _ => none) answers u := by
    refine .answer ⟨_, ⟨⟨⟨rfl, nofun⟩, rfl, by decide⟩, rfl⟩, rfl⟩ ?_
    refine .answer ⟨_, ⟨⟨⟨rfl, by decide⟩, rfl, by decide⟩, rfl⟩, rfl⟩ ?_
    refine .answer ⟨_, ⟨⟨⟨rfl, by decide⟩, rfl, by decide⟩, rfl⟩, rfl⟩ ?_
    refine .answer ⟨_, rfl, rfl⟩ (.answer rfl (.answer ⟨_, rfl, rfl⟩ ?_))
    iterate 4 refine .answer ⟨_, rfl, rfl⟩ ?_
    refine .move (.starts (p := 0) (q := 1) rfl (by decide) rfl) (.move (.ends 0) ?_)
    exact .answer (.inr ⟨rfl, rfl⟩) (.nil _)
  obtain ⟨next, hreaches⟩ := hallowed.calls hcall
  have hbehind : (shell.capture 1 [] none 1).ReadsBehindChild (fun _ => none) 65536 :=
    Action.readsBehindChild_of_meets (shell.capture_drains 1 [] none 1)
      (shell.capture_follows 1 [] none 1 _)
  obtain ⟨⟨hends, -, -, -⟩, -⟩ := hbehind 2 4096 next u hreaches
  have hwrites : held 1 := ⟨3, true, rfl⟩
  refine ⟨next, u, hreaches, rfl, ⟨held, rfl, hwrites⟩, fun h => ?_⟩
  obtain hsome | hreleased :=
    (Household.answers_iff (o := .stdout) ⟨true, rfl⟩ (by decide) hends).mp h
  · exact hsome rfl
  · exact hreleased 1 held rfl hwrites

end OwnedHandles
