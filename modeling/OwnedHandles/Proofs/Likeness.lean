import OwnedHandles.Kernel.Answers

namespace OwnedHandles

def Failure.unnamed : Failure → Failure
  | openFailed _ e => openFailed "" e
  | readFailed _ e => readFailed "" e
  | writeFailed _ e => writeFailed "" e
  | closeFailed _ e => closeFailed "" e
  | removeFailed _ e => removeFailed "" e
  | callFailed call _ e => callFailed call "" e
  | executionFailed _ status stderr => executionFailed "" status stderr
  | invalidString _ => invalidString ""
  | f => f

section Types

variable {α β γ δ : Type}

inductive Result.Like (R : α → β → Prop) : Except Failure α → Except Failure β → Prop
  | ok {a b} (h : R a b) : Like R (.ok a) (.ok b)
  | error {f g} (h : f.unnamed = g.unnamed) : Like R (.error f) (.error g)

/-- The same calls under the same answers, or calls with the same answers that may stand for each
other, and related values at the end. -/
inductive Program.Like (C : Call → Call → Prop) (R : α → β → Prop) : Program α → Program β → Prop
  | done {a b} (h : R a b) : Like C R (.done a) (.done b)
  | abort (m : String) : Like C R (.abort m) (.abort m)
  | unfinished : Like C R .unfinished .unfinished
  | note {e e' p q} (h : Like C R p q) : Like C R (.note e p) (.note e' q)
  | call {c next next'} (h : ∀ a, Like C R (next a) (next' a)) :
      Like C R (.call c next) (.call c next')
  | twin {c c' next next'} (hc : C c c') (ha : c.Answer = c'.Answer)
      (h : ∀ a, Like C R (next a) (next' (cast ha a))) : Like C R (.call c next) (.call c' next')

namespace Program.Like

variable {C : Call → Call → Prop} {R : α → β → Prop} {S : γ → δ → Prop} {p : Program α}
  {q : Program β}

theorem refl {R : α → α → Prop} (hR : ∀ a, R a a) (p : Program α) : p.Like C R p := by
  induction p with
  | done a => exact .done (hR a)
  | abort m => exact .abort m
  | unfinished => exact .unfinished
  | note e p ih => exact .note ih
  | call c next ih => exact .call ih

theorem bind {f : α → Program γ} {g : β → Program δ} (hp : p.Like C R q)
    (hf : ∀ a b, R a b → (f a).Like C S (g b)) : (p.bind f).Like C S (q.bind g) := by
  induction hp with
  | done h => exact hf _ _ h
  | abort m => exact .abort m
  | unfinished => exact .unfinished
  | note _ ih => exact .note ih
  | call _ ih => exact .call ih
  | twin hc ha _ ih => exact .twin hc ha ih

theorem bind_same {p : Program α} {f : α → Program γ} {g : α → Program δ}
    (h : ∀ a, (f a).Like C S (g a)) : (p.bind f).Like C S (p.bind g) := by
  refine .bind (.refl (fun _ => rfl) p) ?_
  rintro a _ rfl
  exact h a

theorem leaving {failed : α → Bool} {failed' : β → Bool} {fin fin' : Program Unit}
    (hp : p.Like C R q) (hfailed : ∀ a b, R a b → failed a = failed' b)
    (hfin : fin.Like C (fun _ _ => True) fin') :
    (Program.leaving failed fin p).Like C R (Program.leaving failed' fin' q) := by
  induction hp with
  | @done a b h =>
    unfold Program.leaving
    rw [hfailed a b h]
    split
    · exact hfin.bind fun _ _ _ => .done h
    · exact .done h
  | abort m => exact hfin.bind fun _ _ _ => .abort m
  | unfinished => exact .unfinished
  | note _ ih => exact .note ih
  | call _ ih => exact .call ih
  | twin hc ha _ ih => exact .twin hc ha ih

end Program.Like

def Action.Like (C : Call → Call → Prop) (R : α → β → Prop) (p : Action α) (q : Action β) : Prop :=
  p.run.Like C (Result.Like R) q.run

namespace Action.Like

variable {C : Call → Call → Prop} {R : α → β → Prop} {S : γ → δ → Prop} {p : Action α}
  {q : Action β}

theorem refl {R : α → α → Prop} (hR : ∀ a, R a a) (p : Action α) : p.Like C R p :=
  Program.Like.refl (fun r => match r with
    | .ok a => .ok (hR a)
    | .error _ => .error rfl) _

theorem pure {a : α} {b : β} (h : R a b) : (Pure.pure a : Action α).Like C R (Pure.pure b) :=
  .done (.ok h)

theorem throw {f g : Failure} (h : f.unnamed = g.unnamed) :
    (MonadExcept.throw f : Action α).Like C R (MonadExcept.throw g) :=
  .done (.error h)

theorem bind {f : α → Action γ} {g : β → Action δ} (hp : p.Like C R q)
    (hf : ∀ a b, R a b → (f a).Like C S (g b)) : (p >>= f).Like C S (q >>= g) := by
  unfold Action.Like
  rw [run_bind, run_bind]
  refine Program.Like.bind hp fun r r' hr => ?_
  cases hr with
  | ok h => exact hf _ _ h
  | error h => exact .done (.error h)

theorem bind_same {p : Action α} {f : α → Action γ} {g : α → Action δ}
    (h : ∀ a, (f a).Like C S (g a)) : (p >>= f).Like C S (p >>= g) := by
  refine .bind (.refl (fun _ => rfl) p) ?_
  rintro a _ rfl
  exact h a

theorem ask_bind {c : Call} {f : c.Answer → Action γ} {g : c.Answer → Action δ}
    (h : ∀ a, (f a).Like C S (g a)) : (ask c >>= f).Like C S (ask c >>= g) :=
  Program.Like.call h

theorem twin_bind {c c' : Call} {f : c.Answer → Action γ} {g : c'.Answer → Action δ} (hc : C c c')
    (ha : c.Answer = c'.Answer) (h : ∀ a, (f a).Like C S (g (cast ha a))) :
    (ask c >>= f).Like C S (ask c' >>= g) :=
  Program.Like.twin hc ha h

theorem log_bind {e e' : Event} {f : Unit → Action γ} {g : Unit → Action δ}
    (h : (f ()).Like C S (g ())) : (log e >>= f).Like C S (log e' >>= g) :=
  Program.Like.note h

theorem lift_bind {p : Program α} {q : Program β} {f : α → Action γ} {g : β → Action δ}
    (hp : p.Like C R q) (hf : ∀ a b, R a b → (f a).Like C S (g b)) :
    (ExceptT.lift p >>= f : Action γ).Like C S (ExceptT.lift q >>= g) := by
  unfold Action.Like
  rw [run_bind, run_bind, run_lift, run_lift, Program.bind_assoc, Program.bind_assoc]
  exact Program.Like.bind hp hf

theorem lift_bind_same {p : Program α} {f : α → Action γ} {g : α → Action δ}
    (h : ∀ a, (f a).Like C S (g a)) :
    (ExceptT.lift p >>= f : Action γ).Like C S (ExceptT.lift p >>= g) :=
  bind_same h

theorem ofExcept {r : Except Failure α} {r' : Except Failure β} (h : Result.Like R r r') :
    (MonadExcept.ofExcept r : Action α).Like C R (MonadExcept.ofExcept r') := by
  cases h with
  | ok h => exact .pure h
  | error h => exact .throw h

theorem onLeave {fin fin' : Program Unit} (hp : p.Like C R q)
    (hfin : fin.Like C (fun _ _ => True) fin') :
    (p.onLeave fin).Like C R (q.onLeave fin') := by
  refine Program.Like.leaving hp (fun r r' hr => ?_) hfin
  cases hr <;> rfl

theorem onAbort {fin fin' : Program Unit} (hp : p.Like C R q)
    (hfin : fin.Like C (fun _ _ => True) fin') :
    (p.onAbort fin).Like C R (q.onAbort fin') :=
  Program.Like.leaving hp (fun _ _ _ => rfl) hfin

end Action.Like

namespace Kernel

inductive Outcome.Like (R : α → β → Prop) : Outcome α → Outcome β → Prop
  | done {a b} (h : R a b) : Like R (.done a) (.done b)
  | aborted (m : String) : Like R (.aborted m) (.aborted m)
  | unfinished : Like R .unfinished .unfinished
  | blocked : Like R .blocked .blocked
  | gone : Like R .gone .gone

structure Finished.Like (R : α → β → Prop) (x : Finished α) (y : Finished β) : Prop where
  outcome : x.outcome.Like R y.outcome
  state : x.state = y.state

theorem Finished.Like.refl (x : Finished α) : x.Like (· = ·) x := by
  obtain ⟨outcome, events, state⟩ := x
  cases outcome with
  | done a => exact ⟨.done rfl, rfl⟩
  | aborted m => exact ⟨.aborted m, rfl⟩
  | unfinished => exact ⟨.unfinished, rfl⟩
  | blocked => exact ⟨.blocked, rfl⟩
  | gone => exact ⟨.gone, rfl⟩

theorem State.run_like {C : Call → Call → Prop} (hC : ∀ c c', ¬C c c') {R : α → β → Prop}
    {p : Program α} {q : Program β} (h : p.Like C R q) (answer : State → (c : Call) → Reply c)
    (s : State) (events events' : List Event) :
    (s.run answer events p).Like R (s.run answer events' q) := by
  induction h generalizing s events events' with
  | done h => exact ⟨.done h, rfl⟩
  | abort m => exact ⟨.aborted m, rfl⟩
  | unfinished => exact ⟨.unfinished, rfl⟩
  | note _ ih => exact ih s _ _
  | @call c next next' _ ih =>
    unfold run
    cases answer s c with
    | answered a t => exact ih a t _ _
    | blocked t => exact ⟨.blocked, rfl⟩
    | gone t => exact ⟨.gone, rfl⟩
  | twin hc => exact (hC _ _ hc).elim

end Kernel

end Types

end OwnedHandles
