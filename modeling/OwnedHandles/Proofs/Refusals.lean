import OwnedHandles.Proofs.Encoding
import OwnedHandles.Proofs.Endings

namespace OwnedHandles

/-- The action looks at these strings first. It ends at once, having called nothing, with the
refusal of the first that is invalid; if none is, it never ends with a failure to marshal. -/
structure Action.Validates {α : Type} (p : Action α) (xs : List LaunchString) : Prop where
  refuses {x : LaunchString} : xs.find? (·.Invalid) = some x → p.run = .done (.error x.refusal)
  accepts : (∀ x ∈ xs, ¬x.Invalid) → ∀ {σ : Type} (w : World σ) (s t : σ) (f : Failure),
    w.Returns p.run s (.error f) t → ¬f.OfMarshalling

namespace Executable

variable {α : Type} {e : Executable} {params : List Bytes} {env : Option Environment}
  {R : LaunchPlan → α → Prop} {F : LaunchPlan → Failure → Prop} {p : Action α}

theorem Plans.validates (h : e.Plans params env p R F)
    (hF : ∀ plan f, F plan f → ¬f.OfMarshalling) :
    p.Validates (LaunchString.ofLaunch e.program params env) where
  refuses {x} hx := by
    obtain ⟨f, rfl, -⟩ := h
    have hmake : LaunchPlan.make e.program params env = .error x.refusal := by
      rw [LaunchPlan.make_eq_judge, LaunchString.judge, hx]
    rw [plan, hmake]
    rfl
  accepts hvalid σ w s t g hg := by
    have hmake := LaunchPlan.make_eq_judge e.program params env
    rw [LaunchString.judge_eq_ok hvalid] at hmake
    exact hF _ g ((h.endsIn hmake).meets.returns hg)

theorem capture_validates (e : Executable) (self : Pid) (params : List Bytes)
    (env : Option Environment) (rounds : Nat) :
    (e.capture self params env rounds).Validates (LaunchString.ofLaunch e.program params env) :=
  (e.capture_plans self params env rounds).validates fun _ _ =>
    Failure.OfExecuting.not_ofMarshalling

end Executable

namespace Environment

theorem keyBefore_iff {a b : Bytes} : keyBefore a b = true ↔ a < b := by
  induction a generalizing b with
  | nil => cases b <;> simp [keyBefore]
  | cons x a ih =>
    cases b with
    | nil => simp [keyBefore]
    | cons y b => simp [keyBefore, List.cons_lt_cons_iff, ih]

theorem mem_insertEntry {key value : Bytes} {entries : List (Bytes × Bytes)} {entry : Bytes × Bytes}
    (h : entry ∈ insertEntry key value entries) : entry = (key, value) ∨ entry ∈ entries := by
  induction entries with
  | nil => exact .inl (List.mem_singleton.mp h)
  | cons first rest ih =>
    obtain ⟨k, v⟩ := first
    unfold insertEntry at h
    grind

def Sorted (entries : List (Bytes × Bytes)) : Prop := entries.Pairwise fun a b => a.1 < b.1

theorem insertEntry_sorted (key value : Bytes) {entries : List (Bytes × Bytes)}
    (h : Sorted entries) : Sorted (insertEntry key value entries) := by
  induction entries with
  | nil => exact List.pairwise_singleton _ _
  | cons first rest ih =>
    obtain ⟨k, v⟩ := first
    obtain ⟨hfirst, hrest⟩ := List.pairwise_cons.mp h
    unfold insertEntry
    by_cases hsame : k = key
    · subst hsame
      rw [if_pos rfl]
      exact List.pairwise_cons.mpr ⟨hfirst, hrest⟩
    · rw [if_neg hsame]
      by_cases hbefore : key < k
      · rw [if_pos (keyBefore_iff.mpr hbefore)]
        refine List.pairwise_cons.mpr ⟨List.forall_mem_cons.mpr ⟨hbefore, fun p hp => ?_⟩, h⟩
        exact List.lt_trans hbefore (hfirst p hp)
      · rw [if_neg (mt keyBefore_iff.mp hbefore)]
        refine List.pairwise_cons.mpr ⟨fun p hp => ?_, ih hrest⟩
        obtain rfl | hp := mem_insertEntry hp
        · exact Std.lt_of_le_of_ne (List.not_lt.mp hbefore) hsame
        · exact hfirst p hp

theorem ofList_sorted (pairs : List (Bytes × Bytes)) : Sorted (ofList pairs).entries := by
  suffices ∀ e : Environment, Sorted e.entries →
      Sorted (pairs.foldl (fun e p => e.insert p.1 p.2) e).entries from this {} List.Pairwise.nil
  induction pairs with
  | nil => exact fun e he => he
  | cons p pairs ih => exact fun e he => ih _ (insertEntry_sorted p.1 p.2 he)

end Environment

namespace LaunchString

def IsText : LaunchString → Prop
  | word s => Text.WellFormed s
  | entry key value => Text.WellFormed key ∧ Text.WellFormed value

theorem IsText.named {x : LaunchString} (h : x.IsText) : Text.WellFormed x.named := by
  cases x with
  | word s => exact h
  | entry key value =>
    change Text.WellFormed (if _ then _ else _)
    split
    · exact h.1
    · have hequals : Text.WellFormed [ArgumentArray.equals] := ⟨"=", rfl⟩
      exact h.1.append (hequals.append h.2)

end LaunchString

/-- In every way to run an executable, the strings are looked at first: the program, the parameters
and the entries of the environment, which are in the order of their keys. The launch is refused,
with nothing called, exactly if the system can not take one of them, and for the first of these;
the refusal names that string as it was handed over. -/
theorem Executable.launches_validate (e : Executable) (params : List Bytes)
    (env : Option Environment) :
    ((e.exec params env).Validates (LaunchString.ofLaunch e.program params env) ∧
      (e.start params env).Validates (LaunchString.ofLaunch e.program params env) ∧
      (e.startAndForget params).Validates (LaunchString.ofLaunch e.program params none) ∧
      (∀ self rounds, (e.capture self params env rounds).Validates
        (LaunchString.ofLaunch e.program params env)) ∧
      (∀ input output error perm, (e.redirect params env input output error perm).Validates
        (LaunchString.ofLaunch e.program params env)) ∧
      ∀ self command rounds, (system self command rounds).Validates
        [.word (Bytes.ofString "/bin/sh"), .word (Bytes.ofString "-c"), .word command]) ∧
    (∀ pairs, Environment.Sorted (Environment.ofList pairs).entries) ∧
    ∀ x : LaunchString, x.IsText →
      ∃ text, x.refusal = .invalidString text ∧ Bytes.ofString text = x.named := by
  have hsystem : ∀ (_ : LaunchPlan) (f : Failure), f.OfSystem → ¬f.OfMarshalling :=
    fun _ _ => Failure.OfSystem.not_ofMarshalling
  refine ⟨⟨(e.exec_plans params env).validates ?_, (e.start_plans params env).validates hsystem,
    (e.startAndForget_plans params).validates hsystem,
    fun self rounds => e.capture_validates self params env rounds,
    fun input output error perm =>
      (e.redirect_plans params env input output error perm).validates hsystem,
    fun self command rounds => ?_⟩, Environment.ofList_sorted, fun x hx => ⟨_, rfl, ?_⟩⟩
  · rintro plan _ ⟨errno, rfl⟩
    exact id
  · have hshell : shell.program = Bytes.ofString "/bin/sh" :=
      congrArg Bytes.ofString (Text.decodeLossy_ofString _)
    have h := shell.capture_validates self [Bytes.ofString "-c", command] none rounds
    rwa [hshell] at h
  · exact Text.ofString_decodeLossy_iff.mpr hx.named

end OwnedHandles
