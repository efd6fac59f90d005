import Mathlib.Control.Monad.Basic
import OwnedHandles.Proofs.World

namespace OwnedHandles

structure Answered where
  call : Call
  answer : call.Answer

namespace Program

variable {α : Type}

/-- Goes on as long as there are answers. Each has to be to the call that is made. -/
def follow : Program α → List Answered → Option (Program α)
  | .note _ p, as => p.follow as
  | .call c next, ⟨c', a⟩ :: as => if h : c' = c then (next (h ▸ a)).follow as else none
  | p, [] => some p
  | _, _ :: _ => none

theorem follow_done {a : α} {p : Program α} {as : List Answered} :
    (done a).follow as = some p ↔ as = [] ∧ p = done a := by
  cases as with
  | nil => exact ⟨fun h => ⟨rfl, (Option.some.inj h).symm⟩, fun h => congrArg some h.2.symm⟩
  | cons x as => exact ⟨nofun, nofun⟩

theorem follow_unfinished {p : Program α} {as : List Answered} :
    unfinished.follow as = some p ↔ as = [] ∧ p = unfinished := by
  cases as with
  | nil => exact ⟨fun h => ⟨rfl, (Option.some.inj h).symm⟩, fun h => congrArg some h.2.symm⟩
  | cons x as => exact ⟨nofun, nofun⟩

theorem follow_call_cons {c : Call} {next : c.Answer → Program α} {a : c.Answer}
    {as : List Answered} : (call c next).follow (⟨c, a⟩ :: as) = (next a).follow as :=
  dif_pos rfl

theorem follow_call {c : Call} {next : c.Answer → Program α} {p : Program α}
    {as : List Answered} : (call c next).follow as = some p ↔ (as = [] ∧ p = call c next) ∨
      ∃ a rest, as = ⟨c, a⟩ :: rest ∧ (next a).follow rest = some p := by
  cases as with
  | nil =>
    constructor
    · exact fun h => .inl ⟨rfl, (Option.some.inj h).symm⟩
    · rintro (⟨-, rfl⟩ | ⟨_, _, ⟨⟩, _⟩)
      rfl
  | cons x rest =>
    constructor
    · intro h
      obtain ⟨c', a⟩ := x
      obtain ⟨rfl, h⟩ := Option.dite_none_right_eq_some.mp h
      exact .inr ⟨a, rest, rfl, h⟩
    · rintro (⟨⟨⟩, _⟩ | ⟨a, _, ⟨⟩, h⟩)
      exact follow_call_cons.trans h

theorem follow_append (p : Program α) (as more : List Answered) :
    p.follow (as ++ more) = (p.follow as).bind fun q => q.follow more := by
  induction p generalizing as with
  | done a => cases as <;> rfl
  | abort m => cases as <;> rfl
  | unfinished => cases as <;> rfl
  | note e p ih => exact ih as
  | call c next ih =>
    cases as with
    | nil => rfl
    | cons x as =>
      obtain ⟨c', a⟩ := x
      by_cases hc : c' = c
      · subst hc
        rw [List.cons_append, follow_call_cons, follow_call_cons]
        exact ih a as
      · simp [follow, hc]

def result? : Program α → Option α
  | .done a => some a
  | _ => none

def call? : Program α → Option Call
  | .call c _ => some c
  | _ => none

theorem eq_call {p : Program α} {c : Call} (h : p.call? = some c) : ∃ next, p = .call c next := by
  cases p with
  | call c' next =>
    obtain rfl := Option.some.inj h
    exact ⟨next, rfl⟩
  | _ => cases h

theorem eq_done {p : Program α} {a : α} (h : p.result? = some a) : p = .done a := by
  cases p with
  | done b => exact congrArg done (Option.some.inj h)
  | _ => cases h

def Finishes : Program α → Prop
  | .done _ => True
  | .abort _ | .unfinished => False
  | .note _ p => p.Finishes
  | .call _ next => ∀ a, (next a).Finishes

end Program

inductive Happening
  | called (x : Answered)
  | logged (e : Event)

namespace Program

variable {α β : Type} {p : Program α} {h : List Happening} {P : Happening → Prop}

inductive Does {α : Type} : Program α → List Happening → α → Prop
  | done (a : α) : Does (.done a) [] a
  | note {e p h a} : Does p h a → Does (.note e p) (.logged e :: h) a
  | call {c next h b} (a : c.Answer) :
      Does (next a) h b → Does (.call c next) (.called ⟨c, a⟩ :: h) b

@[simp] theorem does_done {a b : α} : (done a).Does h b ↔ h = [] ∧ b = a := by
  constructor
  · rintro ⟨⟩
    exact ⟨rfl, rfl⟩
  · rintro ⟨rfl, rfl⟩
    exact .done b

@[simp] theorem does_abort {m : String} {a : α} : ¬(abort m).Does h a := nofun

@[simp] theorem does_unfinished {a : α} : ¬unfinished.Does h a := nofun

@[simp] theorem does_note {e : Event} {a : α} :
    (note e p).Does h a ↔ ∃ rest, h = .logged e :: rest ∧ p.Does rest a := by
  constructor
  · rintro ⟨⟩
    exact ⟨_, rfl, ‹_›⟩
  · rintro ⟨rest, rfl, hp⟩
    exact .note hp

@[simp] theorem does_call {c : Call} {next : c.Answer → Program α} {b : α} :
    (call c next).Does h b ↔ ∃ a rest, h = .called ⟨c, a⟩ :: rest ∧ (next a).Does rest b := by
  constructor
  · rintro ⟨⟩
    exact ⟨_, _, rfl, ‹_›⟩
  · rintro ⟨a, rest, rfl, hp⟩
    exact .call a hp

theorem does_bind {f : α → Program β} {b : β} :
    (p.bind f).Does h b ↔
      ∃ a first rest, h = first ++ rest ∧ p.Does first a ∧ (f a).Does rest b := by
  induction p generalizing h with
  | done a =>
    constructor
    · exact fun hf => ⟨a, [], h, rfl, .done a, hf⟩
    · rintro ⟨_, _, rest, rfl, ⟨⟩, hf⟩
      exact hf
  | abort m => simp
  | unfinished => simp
  | note e p ih =>
    constructor
    · rintro ⟨⟩
      obtain ⟨a, first, rest, rfl, hp, hf⟩ := ih.mp ‹_›
      exact ⟨a, .logged e :: first, rest, rfl, .note hp, hf⟩
    · rintro ⟨a, _, rest, rfl, ⟨⟩, hf⟩
      exact .note (ih.mpr ⟨a, _, rest, rfl, ‹_›, hf⟩)
  | call c next ih =>
    constructor
    · rintro ⟨⟩
      rename_i answer hnext
      obtain ⟨a, first, rest, rfl, hp, hf⟩ := (ih answer).mp hnext
      exact ⟨a, .called ⟨c, answer⟩ :: first, rest, rfl, .call answer hp, hf⟩
    · rintro ⟨a, _, rest, rfl, ⟨⟩, hf⟩
      rename_i answer hp
      exact .call answer ((ih answer).mpr ⟨a, _, rest, rfl, hp, hf⟩)

theorem exists_does_call {a : α} {c : Call} {next : c.Answer → Program α} (r : c.Answer)
    (hnext : ∃ h, (next r).Does h a) : ∃ h, (call c next).Does h a := by
  obtain ⟨h, hnext⟩ := hnext
  exact ⟨_, .call r hnext⟩

theorem does_leaving {a : α} {failed : α → Bool} {fin : Program Unit} (ha : failed a = false) :
    (leaving failed fin p).Does h a ↔ p.Does h a := by
  induction p generalizing h with
  | done b =>
    unfold leaving
    split
    · rename_i hb
      have hne : b ≠ a := by
        rintro rfl
        simp [ha] at hb
      simp [does_bind, hne.symm]
    · rfl
  | abort m => simp [leaving, does_bind]
  | unfinished => rfl
  | note e p ih => simp [leaving, ih]
  | call c next ih => simp [leaving, ih]

def caught : Program α → Program (Except String α)
  | .done a => .done (.ok a)
  | .abort m => .done (.error m)
  | .unfinished => .unfinished
  | .note e p => .note e p.caught
  | .call c next => .call c fun a => (next a).caught

/-- All that can happen in a run of the program has the one property, also if the run has no end,
and the value at its end has the other. -/
def Within (P : Happening → Prop) (R : α → Prop) : Program α → Prop
  | .done a => R a
  | .abort _ | .unfinished => True
  | .note e p => P (.logged e) ∧ p.Within P R
  | .call c next => ∀ a, P (.called ⟨c, a⟩) ∧ (next a).Within P R

theorem Within.bind {R : α → Prop} {S : β → Prop} {f : α → Program β} (hp : p.Within P R)
    (hf : ∀ a, R a → (f a).Within P S) : (p.bind f).Within P S := by
  induction p with
  | done a => exact hf a hp
  | abort m => trivial
  | unfinished => trivial
  | note e p ih => exact ⟨hp.1, ih hp.2⟩
  | call c next ih => exact fun a => ⟨(hp a).1, ih a (hp a).2⟩

theorem Within.weaken {R S : α → Prop} (hp : p.Within P R) (hRS : ∀ a, R a → S a) :
    p.Within P S := by
  rw [← bind_done p]
  exact hp.bind hRS

theorem Within.happenings {R : α → Prop} {a : α} (hp : p.Within P R) (hdoes : p.Does h a) :
    ∀ x ∈ h, P x := by
  induction hdoes with
  | done a => simp
  | note _ ih => exact List.forall_mem_cons.mpr ⟨hp.1, ih hp.2⟩
  | call a _ ih => exact List.forall_mem_cons.mpr ⟨(hp a).1, ih (hp a).2⟩

theorem Within.value {R : α → Prop} {a : α} (hp : p.Within P R) (hdoes : p.Does h a) : R a := by
  induction hdoes with
  | done a => exact hp
  | note _ ih => exact ih hp.2
  | call a _ ih => exact ih (hp a).2

end Program

namespace Action

variable {α β : Type} {p : Action α} {h : List Happening}

theorem does_bind_ok {f : α → Action β} {b : β} : (p >>= f).run.Does h (.ok b) ↔
    ∃ a first rest, h = first ++ rest ∧ p.run.Does first (.ok a) ∧ (f a).run.Does rest (.ok b) := by
  rw [run_bind, Program.does_bind]
  constructor
  · rintro ⟨r, first, rest, rfl, hp, hf⟩
    cases r with
    | ok a => exact ⟨a, first, rest, rfl, hp, hf⟩
    | error f => cases (Program.does_done.mp hf).2
  · rintro ⟨a, first, rest, rfl, hp, hf⟩
    exact ⟨.ok a, first, rest, rfl, hp, hf⟩

theorem does_onLeave_ok {fin : Program Unit} {a : α} :
    (p.onLeave fin).run.Does h (.ok a) ↔ p.run.Does h (.ok a) :=
  Program.does_leaving rfl

theorem does_lift {q : Program α} {r : α} :
    (ExceptT.lift q : Action α).run.Does h (.ok r) ↔ q.Does h r := by
  rw [run_lift, Program.does_bind]
  constructor
  · rintro ⟨b, first, _, rfl, hq, hdone⟩
    obtain ⟨rfl, heq⟩ := Program.does_done.mp hdone
    cases heq
    rwa [List.append_nil]
  · exact fun hq => ⟨r, h, [], (List.append_nil h).symm, hq, .done _⟩

theorem does_attempt {β : Type} {f : Except Failure α → β} {b : β} :
    (p.attempt.bind fun r => .done (f r)).Does h b ↔ ∃ r, p.run.Does h r ∧ b = f r := by
  rw [attempt_eq, Program.does_bind]
  constructor
  · rintro ⟨r, first, _, rfl, hp, hdone⟩
    obtain ⟨rfl, rfl⟩ := Program.does_done.mp hdone
    exact ⟨r, by rwa [List.append_nil], rfl⟩
  · rintro ⟨r, hp, rfl⟩
    exact ⟨r, h, [], (List.append_nil h).symm, hp, .done _⟩

end Action

namespace World

variable {σ α : Type} {w : World σ} {s t : σ} {p q : Program α} {as : List Answered}

inductive Allows (w : World σ) : σ → List Answered → σ → Prop
  | nil (s : σ) : Allows w s [] s
  | answer {s t u : σ} {c : Call} {a : c.Answer} {as : List Answered} :
      w.answers s c a t → Allows w t as u → Allows w s (⟨c, a⟩ :: as) u
  | move {s t u : σ} {as : List Answered} : w.moves s t → Allows w t as u → Allows w s as u

theorem Allows.reaches (h : w.Allows s as t) (hp : p.follow as = some q) :
    w.Reaches (p, s) (q, t) := by
  induction h generalizing p with
  | nil s =>
    induction p with
    | note e p ih => exact .head .note (ih hp)
    | done a =>
      obtain rfl := Option.some.inj hp
      exact .refl
    | abort m =>
      obtain rfl := Option.some.inj hp
      exact .refl
    | unfinished =>
      obtain rfl := Option.some.inj hp
      exact .refl
    | call c next =>
      obtain rfl := Option.some.inj hp
      exact .refl
  | @answer s t u c a as ha hrest ih =>
    induction p with
    | note e p ihp => exact .head .note (ihp hp)
    | done b => cases hp
    | abort m => cases hp
    | unfinished => cases hp
    | call c' next =>
      by_cases hc : c = c'
      · subst hc
        simp only [Program.follow, dite_true] at hp
        exact .head (.call ha) (ih hp)
      · simp [Program.follow, hc] at hp
  | move hm _ ih => exact .head (.others hm) (ih hp)

theorem Allows.calls {c : Call} (h : w.Allows s as t)
    (hp : (p.follow as).bind Program.call? = some c) :
    ∃ next, w.Reaches (p, s) (.call c next, t) := by
  obtain ⟨q, hq, hc⟩ := Option.bind_eq_some_iff.mp hp
  obtain ⟨next, rfl⟩ := Program.eq_call hc
  exact ⟨next, h.reaches hq⟩

theorem Allows.returns {a : α} (h : w.Allows s as t)
    (hp : (p.follow as).bind Program.result? = some a) : w.Returns p s a t := by
  obtain ⟨q, hq, ha⟩ := Option.bind_eq_some_iff.mp hp
  obtain rfl := Program.eq_done ha
  exact h.reaches hq

/-- The program may come to make the call, and is in this state by then. -/
def Calls (w : World σ) (p : Program α) (s : σ) (c : Call) (t : σ) : Prop :=
  ∃ next, w.Reaches (p, s) (.call c next, t)

section Composition

variable {β : Type} {a : α} {u : σ} {c : Call}

theorem Step.bind {s' : σ} {p p' : Program α} (h : w.Step (p, s) (p', s')) (f : α → Program β) :
    w.Step (p.bind f, s) (p'.bind f, s') := by
  cases h with
  | note => exact .note
  | call ha => exact .call ha
  | others hm => exact .others hm

theorem Step.leaving {s' : σ} {p p' : Program α} (h : w.Step (p, s) (p', s')) (failed : α → Bool)
    (fin : Program Unit) : w.Step (.leaving failed fin p, s) (.leaving failed fin p', s') := by
  cases h with
  | note => exact .note
  | call ha => exact .call ha
  | others hm => exact .others hm

theorem Reaches.bind {p p' : Program α} (h : w.Reaches (p, s) (p', t)) (f : α → Program β) :
    w.Reaches (p.bind f, s) (p'.bind f, t) :=
  h.lift (fun c : Program α × σ => (c.1.bind f, c.2)) fun _ _ h => h.bind f

theorem Reaches.leaving {p p' : Program α} (h : w.Reaches (p, s) (p', t)) (failed : α → Bool)
    (fin : Program Unit) : w.Reaches (.leaving failed fin p, s) (.leaving failed fin p', t) :=
  h.lift (fun c : Program α × σ => (Program.leaving failed fin c.1, c.2))
    fun _ _ h => h.leaving failed fin

theorem Returns.bind {p : Program α} {f : α → Program β} {b : β} (hp : w.Returns p s a t)
    (hf : w.Returns (f a) t b u) : w.Returns (p.bind f) s b u :=
  (Reaches.bind hp f).trans hf

theorem Returns.andThen {p : Action α} {f : α → Action β} {r : Except Failure β}
    (hp : w.Returns p.run s (.ok a) t) (hf : w.Returns (f a).run t r u) :
    w.Returns (p >>= f).run s r u := by
  rw [Action.run_bind]
  exact hp.bind hf

theorem Returns.onLeave {p : Action α} {fin : Program Unit} (hp : w.Returns p.run s (.ok a) t) :
    w.Returns (p.onLeave fin).run s (.ok a) t :=
  Reaches.leaving hp _ fin

theorem Returns.calls_bind {p : Program α} {f : α → Program β} (hp : w.Returns p s a t)
    (hf : w.Calls (f a) t c u) : w.Calls (p.bind f) s c u := by
  obtain ⟨next, hf⟩ := hf
  exact ⟨next, (Reaches.bind hp f).trans hf⟩

theorem Returns.calls_andThen {p : Action α} {f : α → Action β} (hp : w.Returns p.run s (.ok a) t)
    (hf : w.Calls (f a).run t c u) : w.Calls (p >>= f).run s c u := by
  rw [Action.run_bind]
  exact hp.calls_bind hf

theorem Calls.bind {p : Program α} (h : w.Calls p s c t) (f : α → Program β) :
    w.Calls (p.bind f) s c t := by
  obtain ⟨next, h⟩ := h
  exact ⟨_, h.bind f⟩

theorem Calls.andThen {p : Action α} (h : w.Calls p.run s c t) (f : α → Action β) :
    w.Calls (p >>= f).run s c t := by
  rw [Action.run_bind]
  exact h.bind _

theorem Calls.leaving {p : Program α} (h : w.Calls p s c t) (failed : α → Bool)
    (fin : Program Unit) : w.Calls (.leaving failed fin p) s c t := by
  obtain ⟨next, h⟩ := h
  exact ⟨_, h.leaving failed fin⟩

end Composition

end World

end OwnedHandles
