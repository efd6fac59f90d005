import Mathlib.Logic.Relation
import OwnedHandles.Program

/-!
Programs in a world. A world says which answers the calls of a program may get in a state, and
what others may do between two of them. What is shown about a program holds for every answer and
every order of steps: `Meets` goes through the program once, and `Meets.reaches` carries it to
every state that a run reaches.
-/

namespace OwnedHandles

structure World (σ : Type) where
  answers : σ → (c : Call) → c.Answer → σ → Prop
  moves : σ → σ → Prop

namespace World

variable {σ : Type}

def alone (answers : σ → (c : Call) → c.Answer → σ → Prop) : World σ :=
  ⟨answers, fun _ _ => False⟩

def Others (w : World σ) : σ → σ → Prop := Relation.ReflTransGen w.moves

theorem Others.refl (w : World σ) (s : σ) : w.Others s s := Relation.ReflTransGen.refl

theorem Others.trans {w : World σ} {s t u : σ} (h : w.Others s t) (h' : w.Others t u) :
    w.Others s u := Relation.ReflTransGen.trans h h'

theorem Others.keeps {w : World σ} {P : σ → Prop} (hP : ∀ s t, w.moves s t → P s → P t)
    {s t : σ} (h : w.Others s t) (hs : P s) : P t := by
  induction h with
  | refl => exact hs
  | tail _ hm ih => exact hP _ _ hm ih

@[simp] theorem others_alone (answers : σ → (c : Call) → c.Answer → σ → Prop) {s t : σ} :
    (alone answers).Others s t ↔ t = s := by
  constructor
  · intro h
    induction h with
    | refl => rfl
    | tail _ hm _ => exact hm.elim
  · rintro rfl
    exact Others.refl _ _

inductive Step (w : World σ) {α : Type} : Program α × σ → Program α × σ → Prop
  | note {e p s} : Step w (.note e p, s) (p, s)
  | call {c next s a t} : w.answers s c a t → Step w (.call c next, s) (next a, t)
  | others {p s t} : w.moves s t → Step w (p, s) (p, t)

def Reaches (w : World σ) {α : Type} : Program α × σ → Program α × σ → Prop :=
  Relation.ReflTransGen w.Step

theorem Reaches.call {w : World σ} {α : Type} {c : Call} {next : c.Answer → Program α} {s t : σ}
    {x : Program α × σ} (a : c.Answer) (ha : w.answers s c a t) (h : w.Reaches (next a, t) x) :
    w.Reaches (.call c next, s) x :=
  .head (.call ha) h

theorem Others.reaches {w : World σ} {α : Type} {s t : σ} (h : w.Others s t) (p : Program α) :
    w.Reaches (p, s) (p, t) :=
  h.lift (fun s => (p, s)) fun _ _ hm => .others hm

def Returns (w : World σ) {α : Type} (p : Program α) (s : σ) (a : α) (t : σ) : Prop :=
  w.Reaches (p, s) (.done a, t)

def Breaks (w : World σ) {α : Type} (p : Program α) (s : σ) (m : String) (t : σ) : Prop :=
  w.Reaches (p, s) (.abort m, t)

end World

/-- What is asked of the runs of a program. -/
structure Contract (σ α : Type) where
  calls : σ → Call → Prop
  returns : α → σ → Prop
  breaks : String → σ → Prop
  givesUp : σ → Prop

namespace Contract

variable {σ α β : Type}

def result (returns : α → σ → Prop) : Contract σ α :=
  ⟨fun _ _ => True, returns, fun _ _ => True, fun _ => True⟩

def always (I : σ → Prop) : Contract σ α := ⟨fun s _ => I s, fun _ => I, fun _ => I, I⟩

def before (q : Contract σ β) (returns : α → σ → Prop) : Contract σ α :=
  ⟨q.calls, returns, q.breaks, q.givesUp⟩

@[simp] theorem before_calls (q : Contract σ β) (r : α → σ → Prop) :
    (q.before r).calls = q.calls := rfl

@[simp] theorem before_returns (q : Contract σ β) (r : α → σ → Prop) :
    (q.before r).returns = r := rfl

@[simp] theorem before_breaks (q : Contract σ β) (r : α → σ → Prop) :
    (q.before r).breaks = q.breaks := rfl

@[simp] theorem before_givesUp (q : Contract σ β) (r : α → σ → Prop) :
    (q.before r).givesUp = q.givesUp := rfl

@[simp] theorem always_calls (I : σ → Prop) (s : σ) (c : Call) :
    (always I : Contract σ α).calls s c ↔ I s := Iff.rfl

@[simp] theorem result_before (r : α → σ → Prop) (r' : β → σ → Prop) :
    (result r).before r' = result r' := rfl

def along {τ : Type} (q : Contract σ α) (R : τ → σ → Prop) : Contract τ α where
  calls t c := ∃ s, R t s ∧ q.calls s c
  returns a t := ∃ s, R t s ∧ q.returns a s
  breaks m t := ∃ s, R t s ∧ q.breaks m s
  givesUp t := ∃ s, R t s ∧ q.givesUp s

def withCalls (q : Contract σ α) (calls : σ → Call → Prop) : Contract σ α :=
  { q with calls := fun s c => q.calls s c ∧ calls s c }

@[simp] theorem before_before {γ : Type} (q : Contract σ γ) (r : β → σ → Prop) (r' : α → σ → Prop) :
    (q.before r).before r' = q.before r' := rfl

end Contract

namespace World

variable {σ α β : Type} {w : World σ} {s t : σ}

/-- Every run of the program from this state keeps to the contract. -/
def Meets (w : World σ) (q : Contract σ α) : Program α → σ → Prop
  | .done a, s => ∀ t, w.Others s t → q.returns a t
  | .abort m, s => ∀ t, w.Others s t → q.breaks m t
  | .unfinished, s => ∀ t, w.Others s t → q.givesUp t
  | .note _ p, s => Meets w q p s
  | .call c next, s => ∀ t, w.Others s t →
      q.calls t c ∧ ∀ a u, w.answers t c a u → Meets w q (next a) u

section Rules

variable (q : Contract σ α)

@[simp] theorem meets_done (a : α) :
    w.Meets q (.done a) s ↔ ∀ t, w.Others s t → q.returns a t := Iff.rfl

@[simp] theorem meets_abort (m : String) :
    w.Meets q (.abort m) s ↔ ∀ t, w.Others s t → q.breaks m t := Iff.rfl

@[simp] theorem meets_unfinished :
    w.Meets q .unfinished s ↔ ∀ t, w.Others s t → q.givesUp t := Iff.rfl

@[simp] theorem meets_note (e : Event) (p : Program α) :
    w.Meets q (.note e p) s ↔ w.Meets q p s := Iff.rfl

@[simp] theorem meets_call (c : Call) (next : c.Answer → Program α) :
    w.Meets q (.call c next) s ↔ ∀ t, w.Others s t →
      q.calls t c ∧ ∀ a u, w.answers t c a u → w.Meets q (next a) u := Iff.rfl

@[simp] theorem meets_log (q : Contract σ Unit) (e : Event) :
    w.Meets q (Program.log e) s ↔ ∀ t, w.Others s t → q.returns () t := Iff.rfl

section Alone

variable {answers : σ → (c : Call) → c.Answer → σ → Prop} {q : Contract σ α}

theorem alone_done {a : α} (h : q.returns a s) : (alone answers).Meets q (.done a) s := by
  intro t ht
  obtain rfl := (others_alone _).mp ht
  exact h

theorem alone_call {c : Call} {next : c.Answer → Program α} (hc : q.calls s c)
    (hnext : ∀ a t, answers s c a t → (alone answers).Meets q (next a) t) :
    (alone answers).Meets q (.call c next) s := by
  intro t ht
  obtain rfl := (others_alone _).mp ht
  exact ⟨hc, hnext⟩

end Alone

end Rules

variable {q : Contract σ α} {p p' : Program α}

theorem Meets.others (h : w.Meets q p s) (ho : w.Others s t) : w.Meets q p t := by
  induction p with
  | done a => exact fun u hu => h u (ho.trans hu)
  | abort m => exact fun u hu => h u (ho.trans hu)
  | unfinished => exact fun u hu => h u (ho.trans hu)
  | note e p ih => exact ih h
  | call c next => exact fun u hu => h u (ho.trans hu)

theorem Meets.step {c c' : Program α × σ} (h : w.Meets q c.1 c.2) (hs : w.Step c c') :
    w.Meets q c'.1 c'.2 := by
  cases hs with
  | note => exact h
  | call ha => exact (h _ (Others.refl w _)).2 _ _ ha
  | others hm => exact h.others (Relation.ReflTransGen.single hm)

theorem Meets.reaches {c c' : Program α × σ} (h : w.Meets q c.1 c.2) (hr : w.Reaches c c') :
    w.Meets q c'.1 c'.2 := by
  induction hr with
  | refl => exact h
  | tail _ hs ih => exact ih.step hs

theorem Meets.returns {a : α} (h : w.Meets q p s) (hr : w.Returns p s a t) : q.returns a t :=
  Meets.reaches (c := (p, s)) h hr t (Others.refl w t)

theorem Meets.breaks {m : String} (h : w.Meets q p s) (hr : w.Breaks p s m t) : q.breaks m t :=
  Meets.reaches (c := (p, s)) h hr t (Others.refl w t)

theorem Meets.calls {c : Call} {next : c.Answer → Program α} (h : w.Meets q p s)
    (hr : w.Reaches (p, s) (.call c next, t)) : q.calls t c :=
  (Meets.reaches (c := (p, s)) h hr t (Others.refl w t)).1

theorem Meets.now {I : σ → Prop} (h : w.Meets (.always I) p s) : I s := by
  induction p with
  | done a => exact h s (Others.refl w s)
  | abort m => exact h s (Others.refl w s)
  | unfinished => exact h s (Others.refl w s)
  | note e p ih => exact ih h
  | call c next => exact (h s (Others.refl w s)).1

theorem Meets.always {I : σ → Prop} {c : Program α × σ} (h : w.Meets (.always I) p s)
    (hr : w.Reaches (p, s) c) : I c.2 :=
  (Meets.reaches (c := (p, s)) h hr).now

theorem Meets.keeps {I : σ → Prop} {c : Program α × σ} (h : w.Meets q p s)
    (hmoves : ∀ s t, w.moves s t → I s → I t)
    (hanswers : ∀ s c a t, q.calls s c → w.answers s c a t → I s → I t)
    (hr : w.Reaches (p, s) c) (hs : I s) : I c.2 := by
  induction hr with
  | refl => exact hs
  | @tail b c hreach hstep ih =>
    have hb := Meets.reaches (c := (p, s)) h hreach
    cases hstep with
    | note => exact ih
    | call ha => exact hanswers _ _ _ _ (hb _ (Others.refl w _)).1 ha ih
    | others hm => exact hmoves _ _ hm ih

theorem Meets.weaken {q' : Contract σ α} (h : w.Meets q p s)
    (hc : ∀ t c, q.calls t c → q'.calls t c) (hr : ∀ a t, q.returns a t → q'.returns a t)
    (hb : ∀ m t, q.breaks m t → q'.breaks m t) (hg : ∀ t, q.givesUp t → q'.givesUp t) :
    w.Meets q' p s := by
  induction p generalizing s with
  | done a => exact fun t ht => hr a t (h t ht)
  | abort m => exact fun t ht => hb m t (h t ht)
  | unfinished => exact fun t ht => hg t (h t ht)
  | note e p ih => exact ih h
  | call c next ih =>
    intro t ht
    obtain ⟨hcall, hnext⟩ := h t ht
    exact ⟨hc t c hcall, fun a u ha => ih a (hnext a u ha)⟩

theorem Meets.returning {R : α → σ → Prop} (h : w.Meets q p s)
    (hr : ∀ a t, q.returns a t → R a t) : w.Meets (q.before R) p s :=
  h.weaken (fun _ _ h => h) hr (fun _ _ h => h) (fun _ h => h)

theorem Meets.settled (h : w.Meets q p s) :
    w.Meets (q.before fun a t => ∀ u, w.Others t u → q.returns a u) p s := by
  induction p generalizing s with
  | done a => exact fun t ht u hu => h u (ht.trans hu)
  | abort m => exact h
  | unfinished => exact h
  | note e p ih => exact ih h
  | call c next ih =>
    intro t ht
    obtain ⟨hcall, hnext⟩ := h t ht
    exact ⟨hcall, fun a u ha => ih a (hnext a u ha)⟩

@[simp] theorem meets_bind (q : Contract σ β) (p : Program α) (f : α → Program β) :
    w.Meets q (p.bind f) s ↔ w.Meets (q.before fun a t => w.Meets q (f a) t) p s := by
  induction p generalizing s with
  | done a => exact ⟨fun h t ht => h.others ht, fun h => h s (Others.refl w s)⟩
  | abort m => exact Iff.rfl
  | unfinished => exact Iff.rfl
  | note e p ih => exact ih
  | call c next ih => simp only [Program.bind, meets_call, ih, Contract.before_calls]

@[simp] theorem meets_leaving (q : Contract σ α) (failed : α → Bool) (fin : Program Unit)
    (p : Program α) :
    w.Meets q (Program.leaving failed fin p) s ↔
      w.Meets ⟨q.calls,
        fun a t => w.Meets q (if failed a then fin.bind fun _ => .done a else .done a) t,
        fun m t => w.Meets q (fin.bind fun _ => .abort m) t,
        q.givesUp⟩ p s := by
  induction p generalizing s with
  | done a =>
    simp only [Program.leaving, meets_done]
    exact ⟨fun h t ht => h.others ht, fun h => h s (Others.refl w s)⟩
  | abort m =>
    simp only [Program.leaving, meets_abort]
    exact ⟨fun h t ht => h.others ht, fun h => h s (Others.refl w s)⟩
  | unfinished => exact Iff.rfl
  | note e p ih => exact ih
  | call c next ih => simp only [Program.leaving, meets_call, ih]

theorem meets_call_bind (q : Contract σ β) (c : Call) (f : c.Answer → Program β) :
    w.Meets q ((Program.ask c).bind f) s ↔ ∀ t, w.Others s t →
      q.calls t c ∧ ∀ a u, w.answers t c a u → w.Meets q (f a) u := Iff.rfl

theorem meets_action_bind (q : Contract σ (Except Failure β)) (p : Action α) (f : α → Action β) :
    w.Meets q (p >>= f).run s ↔ w.Meets (q.before fun r t => match r with
      | .ok a => w.Meets q (f a).run t
      | .error e => w.Meets q (.done (.error e)) t) p.run s := by
  rw [Action.run_bind, meets_bind]
  apply iff_of_eq
  congr 2
  funext r t
  cases r <;> rfl

theorem meets_ask_bind (q : Contract σ (Except Failure β)) (c : Call)
    (f : c.Answer → Action β) :
    w.Meets q (Action.ask c >>= f).run s ↔ ∀ t, w.Others s t →
      q.calls t c ∧ ∀ a u, w.answers t c a u → w.Meets q (f a).run u := by
  simp

theorem meets_log_bind (q : Contract σ (Except Failure β)) (e : Event) (f : Unit → Action β) :
    w.Meets q (Action.log e >>= f).run s ↔ w.Meets q (f ()).run s := by
  simp

theorem meets_ofExcept (q : Contract σ (Except Failure α)) (r : Except Failure α) :
    w.Meets q (MonadExcept.ofExcept r : Action α).run s ↔ ∀ t, w.Others s t → q.returns r t := by
  simp

theorem meets_lift_bind (q : Contract σ (Except Failure β)) (p : Program α) (f : α → Action β) :
    w.Meets q (ExceptT.lift p >>= f).run s ↔
      w.Meets (q.before fun a t => w.Meets q (f a).run t) p s := by
  rw [Action.run_bind, Action.run_lift, Program.bind_assoc, meets_bind]
  rfl

theorem Meets.bind {q : Contract σ β} {P : α → σ → Prop} {f : α → Program β}
    (hp : w.Meets (q.before P) p s) (hf : ∀ a t, P a t → w.Meets q (f a) t) :
    w.Meets q (p.bind f) s :=
  (meets_bind q p f).mpr (hp.returning hf)

theorem Meets.lift_bind {q : Contract σ (Except Failure β)} {P : α → σ → Prop} {f : α → Action β}
    (hp : w.Meets (q.before P) p s) (hf : ∀ a t, P a t → w.Meets q (f a).run t) :
    w.Meets q (ExceptT.lift p >>= f).run s :=
  (meets_lift_bind q p f).mpr (hp.returning hf)

theorem Meets.withCalls {q' : Contract σ α} (h : w.Meets q p s) (h' : w.Meets q' p s) :
    w.Meets (q.withCalls q'.calls) p s := by
  induction p generalizing s with
  | done a => exact h
  | abort m => exact h
  | unfinished => exact h
  | note e p ih => exact ih h h'
  | call c next ih =>
    intro t ht
    obtain ⟨hcall, hnext⟩ := h t ht
    obtain ⟨hcall', hnext'⟩ := h' t ht
    exact ⟨⟨hcall, hcall'⟩, fun a u ha => ih a (hnext a u ha) (hnext' a u ha)⟩

section Refinement

variable {τ : Type} {v : World τ} {R : τ → σ → Prop} {P : σ → Call → Prop}

/-- What happens in one world has its match in the other, for calls that are asked for. A step of
the others may be matched by several or by none. -/
structure Refines (v : World τ) (w : World σ) (R : τ → σ → Prop) (P : σ → Call → Prop) : Prop where
  moves {t t' : τ} {s : σ} : R t s → v.moves t t' → ∃ s', w.Others s s' ∧ R t' s'
  answers {t t' : τ} {s : σ} {c : Call} {a : c.Answer} :
    R t s → P s c → v.answers t c a t' → ∃ s', w.answers s c a s' ∧ R t' s'

theorem Refines.others (hr : v.Refines w R P) {t t' : τ} (hR : R t s) (ho : v.Others t t') :
    ∃ s', w.Others s s' ∧ R t' s' := by
  induction ho with
  | refl => exact ⟨s, Others.refl w s, hR⟩
  | tail _ hm ih =>
    obtain ⟨s', hs', hR'⟩ := ih
    obtain ⟨s'', hs'', hR''⟩ := hr.moves hR' hm
    exact ⟨s'', hs'.trans hs'', hR''⟩

theorem Meets.refine (h : w.Meets q p s) (hr : v.Refines w R q.calls) {t : τ} (hR : R t s) :
    v.Meets (q.along R) p t := by
  induction p generalizing s t with
  | done a =>
    intro t' ht'
    obtain ⟨s', hs', hR'⟩ := hr.others hR ht'
    exact ⟨s', hR', h s' hs'⟩
  | abort m =>
    intro t' ht'
    obtain ⟨s', hs', hR'⟩ := hr.others hR ht'
    exact ⟨s', hR', h s' hs'⟩
  | unfinished =>
    intro t' ht'
    obtain ⟨s', hs', hR'⟩ := hr.others hR ht'
    exact ⟨s', hR', h s' hs'⟩
  | note e p ih => exact ih h hR
  | call c next ih =>
    intro t' ht'
    obtain ⟨s', hs', hR'⟩ := hr.others hR ht'
    obtain ⟨hcall, hnext⟩ := h s' hs'
    refine ⟨⟨s', hR', hcall⟩, fun a u ha => ?_⟩
    obtain ⟨s'', hs'', hR''⟩ := hr.answers hR' hcall ha
    exact ih a (hnext a s'' hs'') hR''

end Refinement

/-- The call is answered, or it is not the only thing that may happen. -/
def CanGoOn (w : World σ) (s : σ) (c : Call) : Prop :=
  (∃ a t, w.answers s c a t) ∨ ∃ t, w.moves s t

theorem step_wellFounded (hmoves : WellFounded fun t s => w.moves s t) :
    WellFounded fun (c' c : Program α × σ) => w.Step c c' := by
  have hsame (p : Program α) (hp : ∀ s c', w.Step (p, s) c' →
      (∃ t, w.moves s t ∧ c' = (p, t)) ∨ Acc (fun c' c => w.Step c c') c') (s : σ) :
      Acc (fun c' c => w.Step c c') (p, s) := by
    induction hmoves.apply s with
    | intro s _ ih =>
      refine ⟨_, fun c' hc' => ?_⟩
      rcases hp s c' hc' with ⟨t, ht, rfl⟩ | hacc
      · exact ih t ht
      · exact hacc
  refine ⟨fun c => ?_⟩
  obtain ⟨p, s⟩ := c
  induction p generalizing s with
  | done a =>
    refine hsame _ (fun s c' hc' => ?_) s
    cases hc' with
    | others hm => exact .inl ⟨_, hm, rfl⟩
  | abort m =>
    refine hsame _ (fun s c' hc' => ?_) s
    cases hc' with
    | others hm => exact .inl ⟨_, hm, rfl⟩
  | unfinished =>
    refine hsame _ (fun s c' hc' => ?_) s
    cases hc' with
    | others hm => exact .inl ⟨_, hm, rfl⟩
  | note e p ih =>
    refine hsame _ (fun s c' hc' => ?_) s
    cases hc' with
    | note => exact .inr (ih s)
    | others hm => exact .inl ⟨_, hm, rfl⟩
  | call c next ih =>
    refine hsame _ (fun s c' hc' => ?_) s
    cases hc' with
    | call ha => exact .inr (ih _ _)
    | others hm => exact .inl ⟨_, hm, rfl⟩

theorem Meets.completes (h : w.Meets q p s) (hmoves : WellFounded fun t s => w.moves s t)
    (hcalls : ∀ t c, q.calls t c → w.CanGoOn t c) (hbreaks : ∀ m t, ¬q.breaks m t)
    (hgivesUp : ∀ t, ¬q.givesUp t) {c : Program α × σ} (hr : w.Reaches (p, s) c) :
    ∃ a t, w.Reaches c (.done a, t) := by
  have hc : w.Meets q c.1 c.2 := Meets.reaches (c := (p, s)) h hr
  clear hr
  induction (step_wellFounded hmoves).apply c with
  | intro c _ ih =>
    obtain ⟨p, s⟩ := c
    have hstep {c' : Program α × σ} (hs : w.Step (p, s) c') :
        ∃ a t, w.Reaches (p, s) (.done a, t) := by
      obtain ⟨a, t, hreach⟩ := ih c' hs (Meets.step (c := (p, s)) hc hs)
      exact ⟨a, t, .head hs hreach⟩
    cases p with
    | done a => exact ⟨a, s, .refl⟩
    | abort m => exact (hbreaks m s (hc s (Others.refl w s))).elim
    | unfinished => exact (hgivesUp s (hc s (Others.refl w s))).elim
    | note e p => exact hstep .note
    | call c next =>
      rcases hcalls s c (hc s (Others.refl w s)).1 with ⟨a, t, ha⟩ | ⟨t, hm⟩
      · exact hstep (.call ha)
      · exact hstep (.others hm)

/-- All runs come to an end, none is stuck before it, and the end is always this value. -/
structure Yields (w : World σ) (p : Program α) (s : σ) (a : α) : Prop where
  ends : Acc (fun c' c => w.Step c c') (p, s)
  completes : ∀ c, w.Reaches (p, s) c → ∃ t, w.Reaches c (.done a, t)
  only : ∀ b t, w.Returns p s b t → b = a

theorem Meets.yields {a : α} (h : w.Meets q p s) (hmoves : WellFounded fun t s => w.moves s t)
    (hcalls : ∀ t c, q.calls t c → w.CanGoOn t c) (hreturns : ∀ b t, q.returns b t → b = a)
    (hbreaks : ∀ m t, ¬q.breaks m t) (hgivesUp : ∀ t, ¬q.givesUp t) : w.Yields p s a where
  ends := (step_wellFounded hmoves).apply _
  completes c hr := by
    obtain ⟨b, t, hb⟩ := h.completes hmoves hcalls hbreaks hgivesUp hr
    obtain rfl := hreturns b t (h.returns (hr.trans hb))
    exact ⟨t, hb⟩
  only b t hr := hreturns b t (h.returns hr)

/-- All runs come to an end, none is stuck before it, and every end is one of these. -/
structure Attains (w : World σ) (p : Program α) (s : σ) (R : α → σ → Prop) : Prop where
  ends : Acc (fun c' c => w.Step c c') (p, s)
  completes : ∀ c, w.Reaches (p, s) c → ∃ a t, w.Reaches c (.done a, t)
  only : ∀ a t, w.Returns p s a t → R a t

theorem Meets.attains {R : α → σ → Prop} (h : w.Meets q p s)
    (hmoves : WellFounded fun t s => w.moves s t) (hcalls : ∀ t c, q.calls t c → w.CanGoOn t c)
    (hreturns : ∀ a t, q.returns a t → R a t) (hbreaks : ∀ m t, ¬q.breaks m t)
    (hgivesUp : ∀ t, ¬q.givesUp t) : w.Attains p s R where
  ends := (step_wellFounded hmoves).apply _
  completes _ hr := h.completes hmoves hcalls hbreaks hgivesUp hr
  only a t hr := hreturns a t (h.returns hr)

end World

end OwnedHandles
