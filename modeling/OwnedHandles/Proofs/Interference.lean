import OwnedHandles.Proofs.Openings

/-!
Opening a file while other processes work on the same files. Between two calls of the process they
may make, rename, remove and change files as they like, but not what the process itself has open.
It is written down which permissions they have given to each file, what the process was told by its
probe, and which file it has opened.
-/

namespace OwnedHandles

open Kernel (State InodeId Sys)
open Kernel.Walk (find)

structure Kernel.Shared where
  state : State
  /-- The permissions that others have last given to a file. -/
  given : InodeId → Mode
  found : Option Bool := none
  opened : Option (InodeId × Bool) := none

namespace Kernel.Shared

variable {pid : Pid} {flags : OpenFlags} {s t : Shared} {u : State} {i : InodeId}

def of (s : State) : Shared := { state := s, given := s.mode }

def Made (s : Shared) (i : InodeId) : Prop := s.opened = some (i, true)

def Met (s : Shared) (i : InodeId) : Prop := s.opened = some (i, false)

/-- The probe has found nothing, but the opening has met this file: others have put it there in the
meantime. -/
def Raced (s : Shared) (i : InodeId) : Prop := s.found = some false ∧ s.Met i

/-- The file has the permissions that others gave to it, but for set-id bits that went when the
opening has cut it to nothing. -/
def Spared (s : Shared) (flags : OpenFlags) (i : InodeId) : Prop :=
  s.state.mode i = s.given i ∨ flags.has .truncate = true ∧ s.Met i ∧
    ∃ member, s.state.mode i = (s.given i).afterWrite member

def after (pid : Pid) (s : Shared) (c : Call) (a : c.Answer) (t : State) : Shared :=
  match c, a with
  | .probe _, (kind : Option FileKind) => { s with state := t, found := some kind.isSome }
  | .openFile .., .ok fd =>
    let made := decide (s.state.inodes.size < t.inodes.size)
    { s with state := t, opened := (t.fileOf? pid fd).map fun f => (f.inode, made) }
  | _, _ => { s with state := t }

structure Keeps (pid : Pid) (s t : Shared) : Prop where
  process : (t.state.process? pid).isSome = (s.state.process? pid).isSome
  handles : ∀ fd, (t.state.fileOf? pid fd).map Kernel.OpenFile.inode =
    (s.state.fileOf? pid fd).map Kernel.OpenFile.inode
  found : t.found = s.found
  opened : t.opened = s.opened

theorem Keeps.refl (pid : Pid) (s : Shared) : s.Keeps pid s := ⟨rfl, fun _ => rfl, rfl, rfl⟩

theorem Keeps.trans {x : Shared} (h : s.Keeps pid t) (h' : t.Keeps pid x) : s.Keeps pid x :=
  ⟨h'.process.trans h.process, fun fd => (h'.handles fd).trans (h.handles fd),
    h'.found.trans h.found, h'.opened.trans h.opened⟩

/-- A step of other processes. Where it changes permissions it gives them. -/
structure Disturbs (pid : Pid) (s t : Shared) : Prop extends s.Keeps pid t where
  given : ∀ i, t.given i = t.state.mode i ∨
    t.given i = s.given i ∧ t.state.mode i = s.state.mode i

def disturbed (s : Shared) (inodes : Array Kernel.Inode) : Shared :=
  let t : State := { s.state with inodes }
  { s with
    state := t
    given := fun i => if t.mode i = s.state.mode i then s.given i else t.mode i }

theorem disturbs_disturbed (pid : Pid) (s : Shared) (inodes : Array Kernel.Inode) :
    s.Disturbs pid (s.disturbed inodes) := by
  refine ⟨⟨rfl, fun _ => rfl, rfl, rfl⟩, fun i => ?_⟩
  by_cases h : (s.disturbed inodes).state.mode i = s.state.mode i
  · exact .inr ⟨if_pos h, h⟩
  · exact .inl (if_neg h)

end Kernel.Shared

def World.shared (pid : Pid) : World Kernel.Shared where
  answers s c a t := ∃ u, Call.answeredTo pid s.state c a u ∧ t = s.after pid c a u
  moves := Kernel.Shared.Disturbs pid

namespace Kernel.Shared

variable {pid : Pid} {flags : OpenFlags} {s t : Shared} {u : State} {i : InodeId}

structure Safe (pid : Pid) (flags : OpenFlags) (s : Shared) : Prop where
  process : (s.state.process? pid).isSome
  spared : ∀ i, ¬s.Raced i → ¬s.Made i → s.Spared flags i

theorem safe_of (hpid : (u.process? pid).isSome) : Safe pid flags (of u) :=
  ⟨hpid, fun _ _ _ => .inl rfl⟩

theorem Disturbs.safe (h : s.Disturbs pid t) (hs : s.Safe pid flags) : t.Safe pid flags := by
  refine ⟨h.process.trans hs.process, fun i hraced hmade => ?_⟩
  have hraced' : ¬s.Raced i := by simpa [Raced, Met, h.found, h.opened] using hraced
  have hmade' : ¬s.Made i := by simpa [Made, h.opened] using hmade
  obtain hgiven | ⟨hgiven, hmode⟩ := h.given i
  · exact .inl hgiven.symm
  · have hspared := hs.spared i hraced' hmade'
    simpa [Spared, Met, h.opened, hgiven, hmode] using hspared

/-- The calls of an opening, in an order that keeps others safe: permissions are set only after a
probe that has found nothing, and only of the file that was opened. -/
def Asks (pid : Pid) (flags : OpenFlags) (s : Shared) : Call → Prop
  | .probe _ => s.opened = none
  | .openFile _ f _ => f = flags ∧ s.opened = none
  | .changeMode fd _ => s.found = some false ∧ ∃ i made, s.opened = some (i, made) ∧
      (s.state.fileOf? pid fd).map Kernel.OpenFile.inode = some i
  | .close _ => True
  | _ => False

theorem Safe.of_mode (hs : s.Safe pid flags) (hpid : (u.process? pid).isSome)
    (hmode : ∀ i, u.mode i = s.state.mode i) : Safe pid flags { s with state := u } :=
  ⟨hpid, fun i hraced hmade => by
    have hspared := hs.spared i hraced hmade
    simpa [Spared, Met, hmode i] using hspared⟩

theorem Safe.unopened (hs : s.Safe pid flags) (hnone : s.opened = none) (i : InodeId) :
    s.state.mode i = s.given i := by
  obtain h | ⟨-, hmet, -⟩ := hs.spared i (by simp [Raced, Met, hnone]) (by simp [Made, hnone])
  · exact h
  · exact absurd (hnone.symm.trans hmet) nofun

theorem Safe.opening {path : Bytes} {fd : Fd} (hs : s.Safe pid flags) (hnone : s.opened = none)
    (hgives : Sys.Gives s.state pid path flags fd u i) :
    Safe pid flags { s with
      state := u, opened := some (i, decide (s.state.inodes.size < u.inodes.size)) } := by
  refine ⟨(hgives.processes.isSome pid).trans hs.process, fun j _ hmade => ?_⟩
  have hgiven := hs.unopened hnone j
  obtain hsame | ⟨hsize, -, rfl⟩ | ⟨hsize, htruncate, -, -, rfl, hcut⟩ := hgives.modes j
  · exact .inl (hsame.trans hgiven)
  · exact absurd (by simp [Made, hsize]) hmade
  · obtain hkept | ⟨member, hlost⟩ := s.state.modeAfterWrite_eq pid j
    · exact .inl ((hcut.trans hkept).trans hgiven)
    · exact .inr ⟨htruncate, by simp [Met, hsize], member, by rw [hcut, hlost, hgiven]⟩

theorem Safe.setMode {perm : Mode} {made : Bool} (hs : s.Safe pid flags)
    (hfound : s.found = some false) (hopened : s.opened = some (i, made)) :
    Safe pid flags { s with state := s.state.setMode i perm } := by
  refine ⟨hs.process, fun j hraced hmade => ?_⟩
  have hij : i ≠ j := by
    rintro rfl
    cases made with
    | false => exact hraced ⟨hfound, hopened⟩
    | true => exact hmade hopened
  have hspared := hs.spared j hraced hmade
  simpa [Spared, Met, State.mode_setMode, hij] using hspared

theorem Safe.answered {c : Call} {a : c.Answer} (hs : s.Safe pid flags) (hc : s.Asks pid flags c)
    (h : (World.shared pid).answers s c a t) : t.Safe pid flags := by
  obtain ⟨u, hu, rfl⟩ := h
  cases c with
  | probe path =>
    obtain ⟨rfl, -⟩ := hu.probe
    exact ⟨hs.process, fun i _ _ => .inl (hs.unopened hc i)⟩
  | openFile path f mode =>
    obtain ⟨rfl, hnone⟩ := hc
    have hopen := hu.openFile
    cases a with
    | error e =>
      obtain rfl : u = s.state := hopen
      exact hs
    | ok fd =>
      obtain ⟨i, hgives⟩ := hopen
      have hsafe := hs.opening hnone hgives
      simpa [after, hgives.file hs.process] using hsafe
  | changeMode fd mode =>
    obtain ⟨hfound, i, made, hopened, hfile⟩ := hc
    have hmode := hu.changeMode
    cases a with
    | error e =>
      obtain rfl : u = s.state := hmode
      exact hs
    | ok _ =>
      obtain ⟨f, hf, -, rfl⟩ := hmode
      obtain rfl : f.inode = i := by simpa [hf] using hfile
      exact hs.setMode hfound hopened
  | close fd =>
    have halike := hu.close
    exact hs.of_mode (halike.stays hs.process) (State.mode_of_files halike.files)
  | _ => exact hc.elim

theorem keeps_of_others (h : (World.shared pid).Others s t) : s.Keeps pid t :=
  h.keeps (P := s.Keeps pid) (fun _ _ (hm : Disturbs pid _ _) hs => hs.trans hm.toKeeps)
    (.refl pid s)

end Kernel.Shared

namespace Descriptor

open Kernel (Shared)

variable {pid : Pid} {file : File} {flags : OpenFlags} {perm : Mode} {s : Shared} {fd : Fd}
  {i : InodeId} {made : Bool} {α : Type}

def asking (pid : Pid) (flags : OpenFlags) : Contract Shared α :=
  ⟨Shared.Asks pid flags, fun _ _ => True, fun _ _ => True, fun _ => True⟩

theorem asks_of_closing {p : Program α} (hp : p.Makes Call.Closes) :
    (World.shared pid).Meets (asking pid flags) p s := by
  refine hp.meets_calls (fun t c hc => ?_) (fun _ _ => trivial) (fun _ _ => trivial)
    fun _ => trivial
  cases c with
  | close fd => trivial
  | _ => exact hc.elim

theorem setExactMode_asks {name : String} (h : s.Asks pid flags (.changeMode fd perm)) :
    (World.shared pid).Meets (asking pid flags) ((owning fd name).setExactMode fd perm).run s := by
  refine (World.meets_ask_bind _ _ _).mpr fun t ht => ⟨?_, fun a u _ => ?_⟩
  · obtain ⟨hfound, i, made, hopened, hfile⟩ := h
    have hkeeps := Shared.keeps_of_others ht
    exact ⟨hkeeps.found.trans hfound, i, made, hkeeps.opened.trans hopened,
      (hkeeps.handles fd).trans hfile⟩
  · cases a with
    | ok _ => exact fun _ _ => trivial
    | error e =>
      refine (World.meets_lift_bind _ (owning fd name).drop _).mpr ?_
      exact (asks_of_closing (drop_makes (fun _ => trivial) _)).returning fun _ _ _ _ _ => trivial

theorem openFile_asks (hs : s.opened = none) (hpid : (s.state.process? pid).isSome) :
    (World.shared pid).Meets (asking pid flags) (openFile file flags perm).run s := by
  refine (World.meets_ask_bind _ _ _).mpr fun t ht => ⟨?_, fun kind u hu => ?_⟩
  · exact (Shared.keeps_of_others ht).opened.trans hs
  obtain ⟨w, hw, rfl⟩ := hu
  obtain ⟨rfl, -⟩ := hw.probe
  refine (World.meets_ask_bind _ _ _).mpr fun v hv => ?_
  have hkeeps := Shared.keeps_of_others hv
  have hnone : v.opened = none := hkeeps.opened.trans ((Shared.keeps_of_others ht).opened.trans hs)
  have hfound : v.found = some kind.isSome := hkeeps.found
  have hprocess : (v.state.process? pid).isSome :=
    hkeeps.process.trans ((Shared.keeps_of_others ht).process.trans hpid)
  refine ⟨⟨rfl, hnone⟩, fun a x hx => ?_⟩
  obtain ⟨w, hw, rfl⟩ := hx
  have hopen := hw.openFile
  cases a with
  | error e => exact fun _ _ => trivial
  | ok fd =>
    obtain ⟨i, hgives⟩ := hopen
    have hfile := hgives.file hprocess
    change (World.shared pid).Meets _ (ExceptT.run (if _ then _ else _)) _
    split
    · rename_i hset
      simp only [Bool.and_eq_true, Bool.not_eq_true'] at hset
      refine (World.meets_action_bind _ _ _).mpr ((setExactMode_asks ?_).returning ?_)
      · exact ⟨hfound.trans (congrArg some hset.1), i, _, congrArg (Option.map _) hfile,
          congrArg (Option.map _) hfile⟩
      · rintro (_ | _) _ _ _ _ <;> trivial
    · exact fun _ _ => trivial

/-- Opening a file leaves the permissions of all files that it has not made to others, but for a
file that others put at the path after the probe. -/
theorem openFile_spares {s : State} {c : Program (Except Failure Descriptor) × Shared}
    (hpid : (s.process? pid).isSome)
    (h : (World.shared pid).Reaches ((openFile file flags perm).run, Shared.of s) c)
    (hraced : ¬c.2.Raced i) (hmade : ¬c.2.Made i) : c.2.Spared flags i := by
  have hsafe : Shared.Safe pid flags c.2 :=
    (openFile_asks (s := Shared.of s) rfl hpid).keeps (fun _ _ hm => Shared.Disturbs.safe hm)
      (fun _ _ _ _ hc ha hs => hs.answered hc ha) h (Shared.safe_of hpid)
  exact hsafe.spared i hraced hmade

/-- The permissions that others give to a file between the probe and the opening stay. -/
theorem openFile_spares_of_change : ∃ y d,
    (World.shared 1).Returns (openFile ⟨[109]⟩ (.writeOnly ||| .create) 0o600).run
      (Shared.of shelf) (.ok d) y ∧
      shelf.mode 1 = 0o4755 ∧ y.given 1 = 0o640 ∧ y.state.mode 1 = 0o640 := by
  have hallows : ∃ y, (World.shared 1).Allows (Shared.of shelf)
      [⟨.probe [109], some .regular⟩,
        ⟨.openFile [109] (.writeOnly ||| .create) 0o600, .ok 0⟩] y ∧
      y.found = some true ∧ y.opened = some (1, false) ∧ y.given 1 = 0o640 :=
    ⟨_, .answer ⟨_, .inl (by cbv), rfl⟩ (.move
      (Shared.disturbs_disturbed 1 _ (shelf.setMode 1 0o640).inodes)
      (.answer ⟨_, .inl (by cbv), rfl⟩ (.nil _))), by cbv, by cbv, by cbv⟩
  obtain ⟨y, hallows, hfound, hopened, hgiven⟩ := hallows
  have hreturns := hallows.returns
    (p := (openFile ⟨[109]⟩ (.writeOnly ||| .create) 0o600).run) (a := .ok (.owning 0 "m"))
    (by decide +kernel)
  have hspared := openFile_spares (i := 1) rfl hreturns (by simp [Shared.Raced, hfound])
    (by simp [Shared.Made, hopened])
  obtain hmode | ⟨htruncate, -⟩ := hspared
  · exact ⟨y, _, hreturns, by cbv, hgiven, hmode.trans hgiven⟩
  · exact absurd htruncate (by decide)

/-- A file that others put at the path after the probe gets the permissions meant for a new one. One
that is cut to nothing loses its set-id bit. -/
theorem openFile_changes_others :
    (∃ y d, (World.shared 1).Returns (openFile ⟨[110]⟩ (.writeOnly ||| .create) 0o666).run
      (Shared.of shelf) (.ok d) y ∧
        y.Raced 3 ∧ ¬y.Made 3 ∧ y.given 3 = 0o600 ∧ y.state.mode 3 = 0o666) ∧
    ∃ y d, (World.shared 1).Returns
      (openFile ⟨[109]⟩ (.writeOnly ||| .create ||| .truncate) 0o600).run (Shared.of shelf)
        (.ok d) y ∧ ¬y.Made 1 ∧ y.given 1 = 0o4755 ∧ y.state.mode 1 = 0o755 := by
  have hraced : ∃ y, (World.shared 1).Allows (Shared.of shelf) [⟨.probe [110], none⟩,
      ⟨.openFile [110] (.writeOnly ||| .create) 0o666, .ok 0⟩, ⟨.changeMode 0 0o666, .ok ()⟩] y ∧
      y.found = some false ∧ y.opened = some (3, false) ∧ y.given 3 = 0o600 ∧
      y.state.mode 3 = 0o666 :=
    ⟨_, .answer ⟨_, .inl (by cbv), rfl⟩ (.move
      (Shared.disturbs_disturbed 1 _ (shelf.addNamed 0 [110] ⟨.ofBytes [], 0o600, 0⟩).1.inodes)
      (.answer ⟨_, .inl (by cbv), rfl⟩ (.answer ⟨_, .inl (by cbv), rfl⟩ (.nil _)))),
      by cbv, by cbv, by cbv, by cbv⟩
  have hcut : ∃ y, (World.shared 1).Allows (Shared.of shelf)
      [⟨.probe [109], some .regular⟩,
        ⟨.openFile [109] (.writeOnly ||| .create ||| .truncate) 0o600, .ok 0⟩] y ∧
      y.opened = some (1, false) ∧ y.given 1 = 0o4755 ∧ y.state.mode 1 = 0o755 :=
    ⟨_, .answer ⟨_, .inl (by cbv), rfl⟩ (.answer ⟨_, .inl (by cbv), rfl⟩ (.nil _)), by cbv, by cbv,
      by cbv⟩
  obtain ⟨y, hraced, hfound, hmet, hgiven, hmode⟩ := hraced
  obtain ⟨z, hcut, hmet', hgiven', hmode'⟩ := hcut
  exact ⟨⟨y, .owning 0 "n", hraced.returns (by decide +kernel), ⟨hfound, hmet⟩,
    by simp [Shared.Made, hmet], hgiven, hmode⟩, z, .owning 0 "m",
    hcut.returns (by decide +kernel), by simp [Shared.Made, hmet'], hgiven', hmode'⟩

end Descriptor

end OwnedHandles
