import Mathlib.Logic.Function.Basic
import OwnedHandles.Proofs.World

namespace OwnedHandles

/-- How the calls of each thread are answered, and what code that is not theirs does. -/
structure Threads (ι σ : Type) where
  answers : ι → σ → (c : Call) → c.Answer → σ → Prop
  outside : σ → σ → Prop

namespace Threads

variable {ι σ α : Type}

/-- The world of one thread, in which every other one makes only calls that it may make. -/
def world (w : Threads ι σ) (calls : ι → σ → Call → Prop) (i : ι) : World σ where
  answers := w.answers i
  moves s t := w.outside s t ∨ ∃ j ≠ i, ∃ c a, calls j s c ∧ w.answers j s c a t

def Meet (w : Threads ι σ) (q : ι → Contract σ α) (x : (ι → Program α) × σ) : Prop :=
  ∀ i, (w.world (fun j => (q j).calls) i).Meets (q i) (x.1 i) x.2

section Meet

variable {w : Threads ι σ} {q : ι → Contract σ α} {x : (ι → Program α) × σ} {i : ι}

theorem Meet.thread {p : Program α} (h : w.Meet q x) (hx : x.1 i = p) :
    (w.world (fun j => (q j).calls) i).Meets (q i) p x.2 :=
  hx ▸ h i

theorem Meet.calls {c : Call} {next : c.Answer → Program α} (h : w.Meet q x)
    (hx : x.1 i = .call c next) : (q i).calls x.2 c :=
  (h.thread hx x.2 (World.Others.refl _ _)).1

end Meet

variable [DecidableEq ι]

inductive Step (w : Threads ι σ) : (ι → Program α) × σ → (ι → Program α) × σ → Prop
  | note {ps : ι → Program α} {i : ι} {e : Event} {p : Program α} {s : σ} :
      ps i = .note e p → Step w (ps, s) (Function.update ps i p, s)
  | call {ps : ι → Program α} {i : ι} {c : Call} {next : c.Answer → Program α} {a : c.Answer}
      {s t : σ} : ps i = .call c next → w.answers i s c a t →
      Step w (ps, s) (Function.update ps i (next a), t)
  | outside {ps : ι → Program α} {s t : σ} : w.outside s t → Step w (ps, s) (ps, t)

def Reaches (w : Threads ι σ) : (ι → Program α) × σ → (ι → Program α) × σ → Prop :=
  Relation.ReflTransGen w.Step

theorem Reaches.run {w : Threads ι σ} (ps : ι → Program α) (i : ι) {p : Program α} {s t : σ}
    (h : (World.alone (w.answers i)).Reaches (ps i, s) (p, t)) :
    w.Reaches (ps, s) (Function.update ps i p, t) := by
  have hrun (x : Program α × σ) (hx : (World.alone (w.answers i)).Reaches (ps i, s) x) :
      w.Reaches (ps, s) (Function.update ps i x.1, x.2) := by
    induction hx with
    | refl => simpa [Reaches] using Relation.ReflTransGen.refl
    | @tail x y _ hstep ih =>
      have hself {p : Program α} : Function.update ps i p i = p := Function.update_self ..
      cases hstep with
      | note => simpa [Reaches] using ih.tail (.note hself)
      | call ha => simpa [Reaches] using ih.tail (.call hself ha)
      | others hm => exact hm.elim
  exact hrun (p, t) h

namespace Meet

variable {w : Threads ι σ} {q : ι → Contract σ α} {x y : (ι → Program α) × σ}

theorem step (h : w.Meet q x) (hs : w.Step x y) : w.Meet q y := by
  intro j
  cases hs with
  | @note ps i e p s hp =>
    by_cases hj : j = i
    · subst hj
      simpa using h.thread hp
    · simpa [hj] using h j
  | @call ps i c next a s t hp ha =>
    by_cases hj : j = i
    · subst hj
      have hnext := (h.thread hp s (World.Others.refl _ _)).2 a t ha
      simpa using hnext
    · -- the other thread's contract allows the call, so thread `j` has reckoned with it
      have hmove : (w.world (fun k => (q k).calls) j).moves s t :=
        .inr ⟨i, Ne.symm hj, c, a, h.calls hp, ha⟩
      simpa [hj] using (h j).others (.single hmove)
  | outside ho => exact (h j).others (.single (.inl ho))

theorem reaches (h : w.Meet q x) (hr : w.Reaches x y) : w.Meet q y := by
  induction hr with
  | refl => exact h
  | tail _ hs ih => exact ih.step hs

theorem keeps {I : σ → Prop} (h : w.Meet q x) (houtside : ∀ s t, w.outside s t → I s → I t)
    (hanswers : ∀ i s c a t, (q i).calls s c → w.answers i s c a t → I s → I t)
    (hr : w.Reaches x y) (hx : I x.2) : I y.2 := by
  induction hr with
  | refl => exact hx
  | @tail y z hreach hstep ih =>
    have hy := h.reaches hreach
    cases hstep with
    | note _ => exact ih
    | call hp ha => exact hanswers _ _ _ _ _ (hy.calls hp) ha ih
    | outside ho => exact houtside _ _ ho ih

end Meet

end Threads

end OwnedHandles
