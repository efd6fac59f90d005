import OwnedHandles.FifoConnection
import OwnedHandles.Proofs.Likeness
import OwnedHandles.Proofs.Spellings
import OwnedHandles.Proofs.SystemCalls

namespace OwnedHandles

open Kernel (State InodeId Outcome Finished Reply Place)

open Kernel.Walk (Agree Spelled check ending endsWithSlash entry existing find place search)

namespace Kernel.Sys

variable {α β : Type} {s : State} {pid : Pid} {p q : Bytes} {flags : OpenFlags} {mode : Mode}
  {a b : Place} {i : InodeId}

theorem run_bind (x : Sys α) (f : α → Sys β) (s : State) : (x >>= f).run s =
    match x.run s with
    | (.ok a, t) => (f a).run t
    | (.error h, t) => (.error h, t) := by
  change ExceptT.bindCont f (x.run s).1 (x.run s).2 = _
  rcases x.run s with ⟨h | a, t⟩ <;> rfl

theorem Checks.congr {P : α → Prop} {x : Sys α} {f g : α → Sys β} (hx : x.Checks s P)
    (h : ∀ a, P a → (f a).run s = (g a).run s) : (x >>= f).run s = (x >>= g).run s := by
  obtain ⟨hsame, hvalue⟩ := hx
  rw [run_bind, run_bind]
  generalize hr : x.run s = r at hsame hvalue
  obtain ⟨r, t⟩ := r
  obtain rfl : t = s := hsame
  cases r with
  | error h => rfl
  | ok a => exact h a (hvalue a rfl)

theorem find_of_agree (h : Agree s False (place s pid true p) (place s pid true q)) :
    find s pid true p = find s pid true q := by
  unfold find
  cases h with
  | same h => rw [h]
  | found hx hy hu hv => simp [hx, hy, hu, hv, bind, Except.bind]

theorem ofExcept_ok_bind (a : α) (f : α → Sys β) : ofExcept (.ok a) >>= f = f a :=
  pure_bind a f

theorem run_get_bind (f : State → Sys β) : (getThe State >>= f).run s = (f s).run s := rfl

theorem require_true_bind (e : Errno) (f : Unit → Sys β) : require true e >>= f = f () :=
  pure_bind () f

theorem unlink_agree (h : Agree s True (entry s pid p) (entry s pid q)) :
    (unlink pid p).run s = (unlink pid q).run s := by
  refine checks_get.congr ?_
  rintro _ rfl
  cases h with
  | same h => rw [h]
  | found hx hy _ _ hnames =>
    obtain ⟨hu, hv⟩ := hnames trivial
    simp only [hx, hy, ofExcept_ok_bind, hu, hv]

/-- A file that is there is opened without a look at its name, unless it might have to be made. -/
theorem openAt_existing (ha : existing s a = .ok i)
    (hname : flags.has .create = true → a.name = none) :
    (openAt pid flags mode a).run s =
      (permit s flags i >>= fun _ => pure i : Sys InodeId).run s := by
  have hguard : (!(flags.has .create && a.slashed && a.name.isSome)) = true := by
    cases hcreate : flags.has .create <;> simp_all
  have hi := (Kernel.Walk.existing_eq_ok_iff.mp ha).1
  rw [openAt, run_get_bind, hguard, require_true_bind]
  simp only [hi, ha, ofExcept_ok_bind]

theorem openUnnamed_existing (h : existing s a = existing s b) :
    (openUnnamed pid mode a).run s = (openUnnamed pid mode b).run s := by
  refine checks_get.congr ?_
  rintro _ rfl
  rw [h]

def opening (s : State) (pid : Pid) (path : Bytes) (flags : OpenFlags) : Except Errno Place :=
  if flags.has .create && endsWithSlash path then entry s pid path
  else place s pid (!flags.has .noFollow && !(flags.has .create && flags.has .exclusive)) path

theorem run_placeToOpen_bind (f : Place → Sys β) : (placeToOpen pid p flags >>= f).run s =
    (ofExcept (opening s pid p flags) >>= f).run s := by
  have hrun : (placeToOpen pid p flags).run s = (ofExcept (opening s pid p flags)).run s := by
    unfold opening
    change (if _ then _ else _ : Sys _).run s = _
    split <;> rfl
  rw [run_bind, run_bind, hrun]

theorem zero_mem_of_check (h : check p = check q) : p.contains 0 = q.contains 0 := by
  have hiff (path : Bytes) : path.contains 0 = true ↔ check path = .error .EINVAL := by
    unfold check
    split
    · exact iff_of_true ‹_› rfl
    · refine iff_of_false ‹_› ?_
      repeat' split
      all_goals nofun
  rw [Bool.eq_iff_iff, hiff, hiff, h]

theorem openFile_agree (hcheck : check p = check q)
    (h : Agree s ((effectiveFlags flags).has .create = true)
      (opening s pid p (effectiveFlags flags)) (opening s pid q (effectiveFlags flags))) :
    (openFile pid p flags mode).run s = (openFile pid q flags mode).run s := by
  simp only [openFile, zero_mem_of_check hcheck, hcheck]
  split
  · rfl
  refine checkFlags_checks.congr fun _ _ => (checks_ofExcept _).congr fun _ _ =>
    reserve_checks.congr fun fd _ => ?_
  rw [run_placeToOpen_bind, run_placeToOpen_bind]
  cases h with
  | same h => rw [h]
  | found hx hy hu hv hnames =>
    rw [hx, hy, ofExcept_ok_bind, ofExcept_ok_bind]
    split
    · rw [run_bind, run_bind, openUnnamed_existing (hu.trans hv.symm)]
    · rw [run_bind, run_bind, openAt_existing hu fun hcreate => (hnames hcreate).1,
        openAt_existing hv fun hcreate => (hnames hcreate).2]

theorem opening_agree (h : Spelled p q) (hending : ending p = ending q) :
    Agree s True (opening s pid p flags) (opening s pid q flags) := by
  unfold opening
  by_cases hdot : ending p = .dot
  · split <;> split
    · exact h.entry_agree hending
    · exact (h.symm.place_entry_agree (hending ▸ hdot) hdot).symm
    · exact h.place_entry_agree hdot (hending ▸ hdot)
    · exact h.place_agree hending
  · rw [Spelled.slash_eq hending hdot]
    split
    · exact h.entry_agree hending
    · exact h.place_agree hending

theorem opening_directory {found : InodeId × List (Bytes × InodeId)} (h : Spelled p q)
    (hfind : find s pid true p = .ok i) (hsearch : search s i = .ok found)
    (hcreate : flags.has .create = false) (hfollow : flags.has .noFollow = false) :
    Agree s (flags.has .create = true) (opening s pid p flags) (opening s pid q flags) := by
  have hno : flags.has .create = true → False := fun h => nomatch hcreate.symm.trans h
  simpa [opening, hcreate, hfollow] using (h.directory_agree hfind hsearch).weaken hno

end Kernel.Sys

section Operations

variable {α β : Type} {R : α → β → Prop} {s : State} {pid : Pid} {f g : File} {flags : OpenFlags}
  {perm : Mode}

theorem Kernel.State.run_call_like {γ : Type} {c c' : Call} {x x' : Kernel.Sys γ}
    {k : Except Errno γ → c.Answer} {k' : Except Errno γ → c'.Answer}
    {next : c.Answer → Program α} {next' : c'.Answer → Program β} {events events' : List Event}
    (hc : s.answerAlone pid c = .ofSys s x k) (hc' : s.answerAlone pid c' = .ofSys s x' k')
    (hx : x.run s = x'.run s)
    (hnext : ∀ r t, x.run s = (r.mapError .errno, t) →
      (t.run (answerAlone pid) events (next (k r))).Like R
        (t.run (answerAlone pid) events' (next' (k' r)))) :
    (s.run (answerAlone pid) events (.call c next)).Like R
      (s.run (answerAlone pid) events' (.call c' next')) := by
  unfold State.run
  rw [hc, hc']
  unfold Reply.ofSys
  rw [← hx]
  cases hr : x.run s with
  | mk r t =>
    obtain (e | _) | a := r
    · exact hnext (.error e) t hr
    · exact ⟨.blocked, rfl⟩
    · exact hnext (.ok a) t hr

theorem Kernel.Sys.run_probe (h : find s pid true f.path = find s pid true g.path) :
    (probe pid f.path).run s = (probe pid g.path).run s := by
  refine checks_get.congr ?_
  rintro _ rfl
  rw [h]

theorem Kernel.State.run_probe_like (h : find s pid true f.path = find s pid true g.path)
    {next : Option FileKind → Program α} {next' : Option FileKind → Program β}
    (hnext : ∀ kind, (s.run (answerAlone pid) [] (next kind)).Like R
      (s.run (answerAlone pid) [] (next' kind))) :
    (s.run (answerAlone pid) [] (.call (.probe f.path) next)).Like R
      (s.run (answerAlone pid) [] (.call (.probe g.path) next')) := by
  have hcall (path : Bytes) : s.answerAlone pid (.probe path) =
      .ofSys s (Kernel.Sys.probe pid path) fun r => r.toOption.join := rfl
  refine run_call_like (hcall _) (hcall _) (Kernel.Sys.run_probe h) fun r t hr => ?_
  have hsame : (Kernel.Sys.probe pid f.path).Ensures s fun _ u => u = s :=
    Kernel.Sys.probe_ensures.weaken fun _ _ h => h.1
  unfold Kernel.Sys.Ensures at hsame
  rw [hr] at hsame
  obtain rfl : t = s := hsame
  exact hnext _

theorem File.leadsSomewhere_like (h : find s pid true f.path = find s pid true g.path) :
    (s.run (State.answerAlone pid) [] f.leadsSomewhere).Like (· = ·)
      (s.run (State.answerAlone pid) [] g.leadsSomewhere) :=
  Kernel.State.run_probe_like h fun _ => .refl _

theorem File.isFifo_like (h : find s pid true f.path = find s pid true g.path) :
    (s.run (State.answerAlone pid) [] f.isFifo).Like (· = ·)
      (s.run (State.answerAlone pid) [] g.isFifo) := by
  refine Kernel.State.run_probe_like h fun kind => ?_
  cases kind with
  | none => exact .refl _
  | some kind => cases kind <;> exact .refl _

theorem File.remove_like
    (h : (Kernel.Sys.unlink pid f.path).run s = (Kernel.Sys.unlink pid g.path).run s) :
    (s.run (State.answerAlone pid) [] f.remove.run).Like (Result.Like (· = ·))
      (s.run (State.answerAlone pid) [] g.remove.run) := by
  refine Kernel.State.run_call_like rfl rfl h fun r t _ => ?_
  cases r with
  | ok _ => exact ⟨.done (.ok rfl), rfl⟩
  | error e => exact ⟨.done (.error rfl), rfl⟩

def Descriptor.Alike (d e : Descriptor) : Prop := d.fd = e.fd

variable {C : Call → Call → Prop}

theorem Descriptor.drop_like {d e : Descriptor} (h : d.Alike e) :
    d.drop.Like C Descriptor.Alike e.drop := by
  obtain ⟨fd, name⟩ := d
  obtain ⟨_, name'⟩ := e
  obtain rfl := h
  cases fd with
  | none => exact .done rfl
  | some fd =>
    refine .call fun a => ?_
    cases a with
    | ok _ => exact .note (.done rfl)
    | error e => exact .note (.done rfl)

theorem Descriptor.setExactMode_like {d e : Descriptor} (h : d.Alike e) (fd : Fd) (perm : Mode) :
    (d.setExactMode fd perm).Like C (· = ·) (e.setExactMode fd perm) := by
  refine .ask_bind fun a => ?_
  cases a with
  | ok _ => exact .pure rfl
  | error errno => exact .lift_bind (drop_like h) fun _ _ _ => .throw rfl

theorem Descriptor.openFile_like (hprobe : find s pid true f.path = find s pid true g.path)
    (hopen : (Kernel.Sys.openFile pid f.path flags perm).run s =
      (Kernel.Sys.openFile pid g.path flags perm).run s) :
    (s.run (State.answerAlone pid) [] (openFile f flags perm).run).Like
      (Result.Like Descriptor.Alike)
      (s.run (State.answerAlone pid) [] (openFile g flags perm).run) := by
  refine Kernel.State.run_probe_like hprobe fun kind => ?_
  refine Kernel.State.run_call_like rfl rfl hopen fun r t _ => ?_
  refine Kernel.State.run_like (C := fun _ _ => False) (fun _ _ => id) ?_ _ _ _ _
  cases r with
  | error e => exact .note (.done (.error rfl))
  | ok fd =>
    refine .note ?_
    have hd : (owning fd f.name).Alike (owning fd g.name) := rfl
    change Action.Like _ Descriptor.Alike (if _ then _ else _) (if _ then _ else _)
    split
    · exact .bind (setExactMode_like hd fd perm) fun _ _ _ => .log_bind (.pure rfl)
    · exact .log_bind (.pure rfl)

end Operations

end OwnedHandles
