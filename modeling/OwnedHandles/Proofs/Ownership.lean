import Mathlib.Data.Finset.Basic
import OwnedHandles.Proofs.Calls

/-!
Who holds which descriptor. Every operation is handed some descriptors and hands over others, and
what it was handed it lets go of on every other way out. On its way it closes only what it holds.
The rules follow the program and the operations are put together from them, so that no way out is
forgotten.
-/

namespace OwnedHandles

/-- What a call does to the set of open descriptors. Every call may fail at any point; closing
frees the number whatever it reports. -/
def Call.changesTable (s : Finset Fd) : (c : Call) → c.Answer → Finset Fd → Prop
  | .openFile .., .ok fd, t => fd ∉ s ∧ t = insert fd s
  | .makePipe, .ok (r, w), t => r ∉ s ∧ w ∉ s ∧ r ≠ w ∧ t = insert w (insert r s)
  | .duplicate _ target, .ok _, t => t = insert target s
  | .close fd, _, t => t = s.erase fd
  | _, _, t => t = s

def World.descriptors : World (Finset Fd) := World.alone Call.changesTable

def Call.takes : Call → List Fd
  | .close fd | .setCloseOnExec fd _ => [fd]
  | .duplicate fd target => [fd, target]
  | .fork task => task.stdio.numbers
  | _ => []

def Call.KeepsTable (own : List Fd) : Call → Prop
  | .openFile .. | .makePipe | .duplicate .. | .close _ | .setCloseOnExec .. => False
  | .fork task => ∀ fd ∈ task.stdio.numbers, fd ∈ own
  | _ => True

theorem Call.KeepsTable.frame {own : List Fd} {c : Call} (hc : c.KeepsTable own) {s t : Finset Fd}
    {a : c.Answer} (h : c.changesTable s a t) : t = s := by
  cases c <;> first | exact hc.elim | exact h

theorem Call.KeepsTable.takes {own : List Fd} {c : Call} (hc : c.KeepsTable own) :
    ∀ fd ∈ c.takes, fd ∈ own := by
  cases c <;> first | exact hc.elim | exact hc | exact fun _ h => (List.not_mem_nil h).elim

def Descriptor.numbers (ds : List Descriptor) : List Fd := ds.filterMap Descriptor.fd

@[simp] theorem Descriptor.numbers_nil : numbers [] = [] := rfl

@[simp] theorem Descriptor.numbers_cons (d : Descriptor) (ds : List Descriptor) :
    numbers (d :: ds) = d.fd.toList ++ numbers ds := by
  cases hd : d.fd <;> simp [numbers, hd]

@[simp] theorem Descriptor.numbers_append (ds es : List Descriptor) :
    numbers (ds ++ es) = numbers ds ++ numbers es := by
  simp [numbers]

/-- The descriptors in `t` are those in `s` and, each of them once, those that `ds` holds. -/
structure Holds (s : Finset Fd) (ds : List Descriptor) (t : Finset Fd) : Prop where
  mem_iff : ∀ n, n ∈ t ↔ n ∈ s ∨ n ∈ Descriptor.numbers ds
  apart : ∀ n ∈ Descriptor.numbers ds, n ∉ s
  distinct : (Descriptor.numbers ds).Nodup

namespace Holds

variable {s t : Finset Fd} {ds es : List Descriptor} {d : Descriptor} {fd : Fd}

@[simp] theorem nil : Holds s [] t ↔ t = s := by
  constructor
  · intro h
    ext n
    simp [h.mem_iff]
  · rintro rfl
    exact ⟨by simp, by simp, by simp⟩

theorem of_numbers (h : Holds s ds t)
    (hn : (Descriptor.numbers ds).Perm (Descriptor.numbers es)) : Holds s es t :=
  ⟨fun n => by rw [h.mem_iff, hn.mem_iff], fun n hm => h.apart n (hn.mem_iff.mpr hm),
    hn.nodup_iff.mp h.distinct⟩

theorem opened (h : Holds s ds t) (hfd : fd ∉ t) (name : String) :
    Holds s (Descriptor.owning fd name :: ds) (insert fd t) := by
  have hout : fd ∉ s ∧ fd ∉ Descriptor.numbers ds := by simpa [h.mem_iff] using hfd
  have hnumbers : Descriptor.numbers (Descriptor.owning fd name :: ds) =
      fd :: Descriptor.numbers ds := by simp [Descriptor.owning]
  constructor
  · intro n
    rw [hnumbers, Finset.mem_insert, h.mem_iff, List.mem_cons]
    exact or_left_comm
  · rw [hnumbers]
    exact List.forall_mem_cons.mpr ⟨hout.1, h.apart⟩
  · rw [hnumbers]
    exact List.nodup_cons.mpr ⟨hout.2, h.distinct⟩

theorem closed (h : Holds s (d :: ds) t) (hd : d.fd = some fd) : Holds s ds (t.erase fd) := by
  have hnumbers : Descriptor.numbers (d :: ds) = fd :: Descriptor.numbers ds := by simp [hd]
  obtain ⟨hmem, hapart, hdistinct⟩ := h
  rw [hnumbers] at hmem hapart hdistinct
  obtain ⟨hout, hrest⟩ := List.nodup_cons.mp hdistinct
  obtain ⟨hfd, hapart⟩ := List.forall_mem_cons.mp hapart
  refine ⟨fun n => ?_, hapart, hrest⟩
  rw [Finset.mem_erase, hmem, List.mem_cons]
  by_cases hn : n = fd
  · subst hn
    simp [hfd, hout]
  · simp [hn]

theorem given_up (h : Holds s (d :: ds) t) (hd : d.fd = none) : Holds s ds t :=
  h.of_numbers (by simp [hd])

theorem takes (h : Holds s ds t) {c : Call} (hc : ∀ fd ∈ c.takes, fd ∈ Descriptor.numbers ds) :
    ∀ fd ∈ c.takes, fd ∈ t ∧ fd ∉ s :=
  fun fd hfd => ⟨(h.mem_iff fd).mpr (.inr (hc fd hfd)), h.apart fd (hc fd hfd)⟩

end Holds

def Contract.passing {α : Type} (s : Finset Fd) (own : α → List Descriptor)
    (lost : List Descriptor) : Contract (Finset Fd) α :=
  ⟨fun u c => ∀ fd ∈ c.takes, fd ∈ u ∧ fd ∉ s, fun a u => Holds s (own a) u,
    fun _ u => Holds s lost u, fun _ => True⟩

/-- Handed `given`, the program hands over what `own` says of its result, and is left with `lost`
when an assertion breaks. What it takes is its own. -/
def Program.Passes {α : Type} (given : List Descriptor) (p : Program α)
    (own : α → List Descriptor) (lost : List Descriptor) : Prop :=
  ∀ s t, Holds s given t → World.descriptors.Meets (.passing s own lost) p t

def Action.left {α : Type} (own : α → List Descriptor) (lost : List Descriptor) :
    Except Failure α → List Descriptor
  | .ok a => own a
  | .error _ => lost

def Action.Passes {α : Type} (given : List Descriptor) (p : Action α)
    (own : α → List Descriptor) (lost : List Descriptor) : Prop :=
  p.run.Passes given (Action.left own lost) lost

namespace Program

variable {α β : Type} {given given' lost lost' ds : List Descriptor} {own : α → List Descriptor}
  {p : Program α}

theorem passes_done (own : α → List Descriptor) (a : α) : Passes (own a) (done a) own lost := by
  intro s t h u hu
  rw [World.descriptors, World.others_alone] at hu
  exact hu ▸ h

theorem passes_log (e : Event) : Passes ds (log e) (fun _ => ds) lost :=
  fun s t h => passes_done (fun _ => ds) () s t h

theorem passes_abort (m : String) : Passes lost (abort m : Program α) own lost := by
  intro s t h u hu
  rw [World.descriptors, World.others_alone] at hu
  exact hu ▸ h

theorem Passes.bind {own' : β → List Descriptor} {f : α → Program β}
    (hp : p.Passes given own lost) (hf : ∀ a, (f a).Passes (own a) own' lost) :
    (p.bind f).Passes given own' lost := by
  intro s t h
  rw [World.meets_bind]
  exact (hp s t h).returning fun a u hu => hf a s u hu

theorem Passes.of_numbers (hp : p.Passes given' own lost)
    (hn : (Descriptor.numbers given).Perm (Descriptor.numbers given')) :
    p.Passes given own lost :=
  fun s t h => hp s t (h.of_numbers hn)

theorem Makes.passes (hp : p.Makes (Call.KeepsTable (Descriptor.numbers ds))) :
    p.Passes ds (fun _ => ds) ds := by
  intro s t h
  refine hp.meets (fun u hu => ?_) (fun c a u hc ha => hc.frame ha) (fun _ hc => h.takes hc.takes)
    (fun _ => h) (fun _ => h) trivial
  rwa [World.descriptors, World.others_alone] at hu

theorem Passes.leaving {own' : α → List Descriptor} {failed : α → Bool} {fin : Program Unit}
    (hp : p.Passes given own lost) (hlost : fin.Passes lost (fun _ => lost') lost')
    (hfailed : ∀ a, failed a = true → fin.Passes (own a) (fun _ => own' a) lost')
    (hother : ∀ a, failed a = false → own a = own' a) :
    (leaving failed fin p).Passes given own' lost' := by
  intro s t h
  rw [World.meets_leaving]
  refine (hp s t h).weaken (fun _ _ h => h) (fun a u hu => ?_) (fun m u hu => ?_) (fun _ h => h)
  · cases ha : failed a with
    | true =>
      simp only [ha, if_true]
      exact (hfailed a ha).bind (fun _ => passes_done own' a) s u hu
    | false =>
      simp only [ha]
      exact passes_done own' a s u (hother a ha ▸ hu)
  · exact (hlost.bind fun _ => passes_abort m) s u hu

end Program

namespace Action

variable {α β : Type} {given lost ds : List Descriptor} {own : α → List Descriptor}
  {p : Action α}

theorem passes_pure (own : α → List Descriptor) (a : α) : Passes (own a) (pure a) own lost :=
  Program.passes_done (left own lost) (.ok a)

theorem passes_throw (f : Failure) : Passes lost (throw f) own lost :=
  Program.passes_done (left own lost) (.error f)

theorem passes_ofExcept (r : Except Failure α) :
    Passes lost (MonadExcept.ofExcept r) (fun _ => lost) lost := by
  cases r with
  | ok a => exact passes_pure (fun _ => lost) a
  | error f => exact passes_throw f

theorem Passes.bind {own' : β → List Descriptor} {f : α → Action β}
    (hp : p.Passes given own lost) (hf : ∀ a, (f a).Passes (own a) own' lost) :
    (p >>= f).Passes given own' lost := by
  unfold Passes
  rw [run_bind]
  apply Program.Passes.bind hp
  intro r
  cases r with
  | ok a => exact hf a
  | error f => exact passes_throw f

theorem passes_ask {c : Call} {own : c.Answer → List Descriptor}
    (htakes : ∀ fd ∈ c.takes, fd ∈ Descriptor.numbers given)
    (hc : ∀ s t a u, Holds s given t → c.changesTable t a u → Holds s (own a) u) :
    Passes given (Action.ask c) own lost := by
  intro s t h u hu
  rw [World.descriptors, World.others_alone] at hu
  subst hu
  exact ⟨h.takes htakes, fun a v ha => passes_pure own a s v (hc s u a v h ha)⟩

theorem makes_passes (hp : p.run.Makes (Call.KeepsTable (Descriptor.numbers ds))) :
    p.Passes ds (fun _ => ds) ds := by
  intro s t h
  apply (hp.passes s t h).returning
  intro r u hu
  cases r <;> exact hu

theorem passes_keeping {c : Call} (hc : c.KeepsTable (Descriptor.numbers ds)) :
    Passes ds (Action.ask c) (fun _ => ds) lost :=
  passes_ask hc.takes fun _ _ _ _ h ha => hc.frame ha ▸ h

theorem passes_log (e : Event) : Passes ds (Action.log e) (fun _ => ds) lost :=
  fun s t h => passes_pure (fun _ => ds) () s t h

theorem passes_abort (m : String) : Passes lost (abort m) own lost :=
  Program.passes_abort m

theorem passes_orFail {asFailure : Errno → Failure} (held : Except Errno α → List Descriptor)
    (r : Except Errno α) (herror : ∀ e, held (.error e) = lost) :
    Passes (held r) (orFail asFailure r) (fun a => held (.ok a)) lost := by
  cases r with
  | ok a => exact passes_pure (fun a => held (.ok a)) a
  | error e =>
    rw [herror e]
    exact passes_throw _

theorem passes_lift {p : Program α} (hp : p.Passes given own lost) :
    Passes given (ExceptT.lift p) own lost :=
  Program.Passes.bind hp fun a => passes_pure own a

theorem Passes.onLeave {lost' : List Descriptor} {fin : Program Unit}
    (hp : p.Passes given own lost) (hfin : fin.Passes lost (fun _ => lost') lost') :
    (p.onLeave fin).Passes given own lost' := by
  refine Program.Passes.leaving hp hfin (fun r hr => ?_) (fun r hr => ?_)
  · cases r with
    | ok a => simp [Except.isOk, Except.toBool] at hr
    | error f => exact hfin
  · cases r with
    | ok a => rfl
    | error f => simp [Except.isOk, Except.toBool] at hr

theorem Passes.frame {ds : List Descriptor} (hp : p.Passes [] (fun _ => []) []) :
    p.Passes ds (fun _ => ds) ds := by
  intro s t h
  refine (hp t t (Holds.nil.mpr rfl)).weaken (fun u call hcall fd hfd => ?_) (fun r u hu => ?_)
    (fun _ u hu => Holds.nil.mp hu ▸ h) fun _ h => h
  · obtain ⟨hu, ht⟩ := hcall fd hfd
    exact ⟨hu, fun hs => ht ((h.mem_iff fd).mpr (.inl hs))⟩
  · cases r <;> exact Holds.nil.mp hu ▸ h

theorem passes_settling {r : Except Failure β} {fin : Program Unit} {f : β → Action α}
    (hfin : fin.Passes given (fun _ => lost) lost)
    (hf : ∀ b, r = .ok b → (f b).Passes given own lost) :
    ((MonadExcept.ofExcept r : Action β).onLeave fin >>= f).Passes given own lost := by
  cases r with
  | ok b => exact hf b rfl
  | error e =>
    have hrun : ((MonadExcept.ofExcept (.error e) : Action β).onLeave fin >>= f).run =
        fin.bind fun _ => (throw e : Action α).run := by
      rw [run_bind, run_onLeave, run_ofExcept]
      exact Program.bind_assoc _ _ _
    rw [Passes, hrun]
    exact hfin.bind fun _ => passes_throw e

end Action

end OwnedHandles
