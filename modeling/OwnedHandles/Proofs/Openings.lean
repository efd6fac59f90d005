import Mathlib
import OwnedHandles.Kernel.Answers
import OwnedHandles.Proofs.Calls
import OwnedHandles.Proofs.Runs
import OwnedHandles.Proofs.SystemCalls

namespace OwnedHandles

open Kernel (State InodeId Reply Sys Walk.find)

/-- Errors for which there need not be a reason in the state. -/
def Call.Refused : (c : Call) → c.Answer → Prop
  | .openFile .., .error _ | .changeMode .., .error _ | .setMask _, .error _
  | .fork _, .error _ => True
  | _, _ => False

/-- How the system answers a process. A call that it refuses has done nothing. -/
def Call.answeredTo (pid : Pid) (s : State) (c : Call) (a : c.Answer) (t : State) : Prop :=
  s.answerAlone pid c = .answered a t ∨ c.Refused a ∧ t = s

def World.kernel (pid : Pid) : World State := .alone (Call.answeredTo pid)

structure Kernel.State.Alike (s t : State) : Prop extends s.SameProcesses t where
  files : t.files = s.files

namespace Kernel.State.Alike

theorem refl (s : State) : s.Alike s := ⟨.refl s, rfl⟩

theorem trans {s t u : State} (h : s.Alike t) (h' : t.Alike u) : s.Alike u :=
  ⟨h.toSameProcesses.trans h'.toSameProcesses, h'.files.trans h.files⟩

theorem stays {s t : State} {pid : Pid} (h : s.Alike t) (hpid : (s.process? pid).isSome) :
    (t.process? pid).isSome := (h.toSameProcesses.isSome pid).trans hpid

end Kernel.State.Alike

section Answers

variable {pid : Pid} {s t : State} {path : Bytes} {flags : OpenFlags} {mode : Mode} {fd : Fd}

theorem Kernel.Reply.answered_ofSys {c : Call} {α : Type} {p : Sys α}
    {f : Except Errno α → c.Answer} {a : c.Answer} {R : Except Kernel.Halt α → State → Prop}
    (hp : p.Ensures s R) (h : Reply.ofSys s p f = .answered a t) :
    ∃ r : Except Errno α, a = f r ∧ R (r.mapError .errno) t := by
  unfold Sys.Ensures at hp
  unfold ofSys at h
  split at h
  · rename_i x u hrun
    obtain ⟨rfl, rfl⟩ := Reply.answered.inj h
    rw [hrun] at hp
    exact ⟨.ok x, rfl, hp⟩
  · rename_i e u hrun
    obtain ⟨rfl, rfl⟩ := Reply.answered.inj h
    rw [hrun] at hp
    exact ⟨.error e, rfl, hp⟩
  · cases h

namespace Call.answeredTo

theorem probe {kind : Option FileKind} (h : Call.answeredTo pid s (.probe path) kind t) :
    t = s ∧ (kind.isSome = true ↔ ∃ i, Walk.find s pid true path = .ok i) := by
  obtain h | ⟨h, -⟩ := h
  · change Reply.ofSys (c := .probe path) s (Sys.probe pid path) (fun r => r.toOption.join) = _ at h
    obtain ⟨r, rfl, rfl, kind, hkind, hfound⟩ := Reply.answered_ofSys Sys.probe_ensures h
    cases r with
    | ok kind' =>
      obtain rfl := Except.ok.inj hkind
      exact ⟨rfl, hfound⟩
    | error e => cases hkind
  · exact h.elim

theorem openFile {r : Except Errno Fd} (h : Call.answeredTo pid s (.openFile path flags mode) r t) :
    match r with
      | .error _ => t = s
      | .ok fd => ∃ i, Sys.Gives s pid path flags fd t i := by
  obtain h | ⟨hrefused, rfl⟩ := h
  · obtain ⟨r, rfl, hr⟩ := Reply.answered_ofSys Sys.openFile_ensures h
    cases r <;> exact hr
  · cases r with
    | ok fd => exact hrefused.elim
    | error e => rfl

theorem changeMode {r : Except Errno Unit}
    (h : Call.answeredTo pid s (.changeMode fd mode) r t) : match r with
      | .error _ => t = s
      | .ok _ => ∃ f, s.fileOf? pid fd = some f ∧ f.flags.has .pathOnly = false ∧
          t = s.setMode f.inode (s.granted pid f.inode mode) := by
  obtain h | ⟨hrefused, rfl⟩ := h
  · obtain ⟨r, rfl, hr⟩ := Reply.answered_ofSys Sys.changeMode_ensures h
    cases r <;> exact hr
  · cases r with
    | ok _ => exact hrefused.elim
    | error e => rfl

theorem close {r : Except Errno Unit} (h : Call.answeredTo pid s (.close fd) r t) : s.Alike t := by
  obtain h | ⟨h, -⟩ := h
  · obtain ⟨r, rfl, rfl | rfl⟩ := Reply.answered_ofSys Sys.close_ensures h
    · exact .refl t
    · exact ⟨.closeHandles s pid _, s.files_closeHandles pid _⟩
  · exact h.elim

end Call.answeredTo

end Answers

section Descriptors

variable {pid : Pid} {s t : State} {file : File} {flags : OpenFlags} {perm : Mode}

def Call.Closes : Call → Prop
  | .close _ => True
  | _ => False

theorem Program.Makes.alike {α : Type} {p : Program α} {R : α → State → Prop}
    (hp : p.Makes Call.Closes) (hR : ∀ a t, s.Alike t → R a t) :
    (World.kernel pid).Meets (.result R) p s := by
  refine hp.meets_keeping (I := s.Alike) (fun _ _ h => h.elim) (fun t c a u hc ha ht => ?_)
    (fun _ _ _ _ => trivial) hR (fun _ _ _ => trivial) (fun _ _ => trivial) (.refl s)
  cases c with
  | close fd => exact ht.trans ha.close
  | _ => exact hc.elim

inductive Descriptor.Leaves (pid : Pid) (s : State) (file : File) (flags : OpenFlags)
    (perm : Mode) : Except Failure Descriptor → State → Prop
  | refused {e} : Leaves pid s file flags perm (.error (.openFailed file.name e)) s
  | unset {e fd i t u} : (¬∃ i, Walk.find s pid true file.path = .ok i) →
      Sys.Gives s pid file.path flags fd t i → t.Alike u →
      Leaves pid s file flags perm (.error (.callFailed "fchmod" ("on file " ++ file.name) e)) u
  | kept {fd i t} : (flags.has .create = true → ∃ i, Walk.find s pid true file.path = .ok i) →
      Sys.Gives s pid file.path flags fd t i →
      Leaves pid s file flags perm (.ok (.owning fd file.name)) t
  | set {fd i t f} : (¬∃ i, Walk.find s pid true file.path = .ok i) →
      Sys.Gives s pid file.path flags fd t i → t.fileOf? pid fd = some f →
      f.flags.has .pathOnly = false →
      Leaves pid s file flags perm (.ok (.owning fd file.name))
        (t.setMode f.inode (t.granted pid f.inode perm))

theorem Descriptor.setExactMode_kernel {R : Except Failure Unit → State → Prop} {name : String}
    {fd : Fd} (hset : ∀ f, s.fileOf? pid fd = some f → f.flags.has .pathOnly = false →
      R (.ok ()) (s.setMode f.inode (s.granted pid f.inode perm)))
    (hfailed : ∀ e t, s.Alike t → R (.error (.callFailed "fchmod" ("on file " ++ name) e)) t) :
    (World.kernel pid).Meets (.result R) ((owning fd name).setExactMode fd perm).run s := by
  refine World.alone_call trivial fun a t ht => ?_
  have hmode := ht.changeMode
  cases a with
  | ok _ =>
    obtain ⟨f, hf, hpath, rfl⟩ := hmode
    exact World.alone_done (hset f hf hpath)
  | error e =>
    obtain rfl : t = s := hmode
    refine (World.meets_lift_bind _ (owning fd name).drop _).mpr ?_
    exact (drop_makes (fun _ => trivial) _).alike fun _ u hu => World.alone_done (hfailed e u hu)

theorem Descriptor.openFile_leaves (pid : Pid) (s : State) (file : File) (flags : OpenFlags)
    (perm : Mode) : (World.kernel pid).Meets (.result (Leaves pid s file flags perm))
      (openFile file flags perm).run s := by
  refine World.alone_call trivial fun kind t ht => ?_
  obtain ⟨rfl, hkind⟩ := ht.probe
  refine World.alone_call trivial fun a u hu => ?_
  have hopen := hu.openFile
  cases a with
  | error e =>
    obtain rfl : u = t := hopen
    exact World.alone_done .refused
  | ok fd =>
    obtain ⟨i, hgives⟩ := hopen
    change (World.kernel pid).Meets _ (ExceptT.run (if _ then _ else _)) _
    split
    · rename_i hset
      simp only [Bool.and_eq_true, Bool.not_eq_true', ← Bool.not_eq_true, hkind] at hset
      refine (World.meets_action_bind _ _ _).mpr (setExactMode_kernel (fun f hf hpath => ?_)
        fun e v hv => ?_)
      · exact World.alone_done (.set hset.1 hgives hf hpath)
      · exact World.alone_done (.unset hset.1 hgives hv)
    · rename_i hset
      refine World.alone_done (.kept (fun hcreate => ?_) hgives)
      rw [← hkind]
      simpa [hcreate] using hset

end Descriptors

namespace Kernel.State

variable {pid : Pid} {s t : State} {path : Bytes} {flags : OpenFlags} {perm : Mode} {fd : Fd}
  {i : InodeId}

/-- What was there keeps its permissions, but for the set-id bits of a file that the opening has
cut to nothing. -/
def KeepsModes (s t : State) (pid : Pid) (path : Bytes) (flags : OpenFlags) : Prop :=
  ∀ i < s.inodes.size, t.mode i = s.mode i ∨
    flags.has .truncate = true ∧ Walk.find s pid true path = .ok i ∧
      (∃ data slack, s.content i = .regular data slack) ∧ t.mode i = s.modeAfterWrite pid i

/-- Where the path led to nothing there is an empty file with these permissions, and that is all
that is new. -/
structure Makes (s t : State) (pid : Pid) (path : Bytes) (perm : Mode) : Prop where
  files : ∃ place name, Walk.place s pid true path = .ok place ∧ place.inode = none ∧
    place.name = some name ∧ place.slashed = false ∧
    t.files = (s.addNamed place.directory name
      ⟨.ofBytes [], perm, s.groupIn pid place.directory⟩).1.files
  processes : s.SameProcesses t

theorem mode_addNamed {directory parent : InodeId} {entries : List (Bytes × InodeId)}
    (h : s.content directory = .directory parent entries) (name : Bytes) (n : Inode)
    (i : InodeId) :
    (s.addNamed directory name n).1.mode i = if i = s.inodes.size then n.mode else s.mode i := by
  rw [mode, inode_addNamed h]
  split
  · rfl
  · split
    · subst i
      rfl
    · rfl

namespace Makes

theorem mode (h : s.Makes t pid path perm) : t.mode s.inodes.size = perm := by
  obtain ⟨place, name, hplace, hnone, -, -, hfiles⟩ := h.files
  obtain ⟨parent, entries, hd⟩ := Sys.directory_of_missing hplace hnone
  rw [mode_of_files hfiles, mode_addNamed hd, if_pos rfl]

theorem others (h : s.Makes t pid path perm) (hi : i < s.inodes.size) : t.mode i = s.mode i := by
  obtain ⟨place, name, hplace, hnone, -, -, hfiles⟩ := h.files
  obtain ⟨parent, entries, hd⟩ := Sys.directory_of_missing hplace hnone
  rw [mode_of_files hfiles, mode_addNamed hd, if_neg (Nat.ne_of_lt hi)]

theorem leads (h : s.Makes t pid path perm) : Walk.find t pid true path = .ok s.inodes.size := by
  obtain ⟨place, name, hplace, hnone, hname, hslashed, hfiles⟩ := h.files
  obtain ⟨parent, entries, hd⟩ := Sys.directory_of_missing hplace hnone
  exact Walk.find_addNamed hplace hnone hname hslashed (fun _ h => by cases h) hfiles
    ((SameProcesses.addNamed hd name _).symm.trans h.processes)

theorem setMode (h : s.Makes t pid path perm) (perm' : Mode) :
    s.Makes (t.setMode s.inodes.size perm') pid path perm' := by
  obtain ⟨place, name, hplace, hnone, hname, hslashed, hfiles⟩ := h.files
  obtain ⟨parent, entries, hd⟩ := Sys.directory_of_missing hplace hnone
  refine ⟨⟨place, name, hplace, hnone, hname, hslashed, ?_⟩, h.processes.nextPid,
    h.processes.pids, h.processes.directory, h.processes.credentials⟩
  rw [files_setMode hfiles, files_setMode_addNamed hd]

end Makes

end Kernel.State

namespace Kernel.Sys.Gives

variable {pid : Pid} {s t u : State} {path : Bytes} {flags : OpenFlags} {perm : Mode} {fd : Fd}
  {i : InodeId} {f : OpenFile}

theorem found_or_emptied (h : Gives s pid path flags fd t i) :
    (∃ u, Found s pid path flags i u ∧ t.files = u.files) ∨
      Walk.find s pid true path = .ok i ∧ flags.has .truncate = true ∧
        (∃ data slack, s.content i = .regular data slack) ∧ t.files = (s.emptied pid i).files := by
  have hopened := h.opened
  generalize t.files = files at hopened ⊢
  cases hopened with
  | asFound hfound => exact .inl ⟨_, hfound, rfl⟩
  | emptied hfind htruncate hregular => exact .inr ⟨hfind, htruncate, ⟨_, _, hregular⟩, rfl⟩

theorem modes (h : Gives s pid path flags fd t i) (j : InodeId) :
    t.mode j = s.mode j ∨
    (t.inodes.size = s.inodes.size + 1 ∧ i = s.inodes.size ∧ j = i) ∨
    (t.inodes.size = s.inodes.size ∧ flags.has .truncate = true ∧
      Walk.find s pid true path = .ok i ∧ (∃ data slack, s.content i = .regular data slack) ∧
      j = i ∧ t.mode j = s.modeAfterWrite pid j) := by
  obtain ⟨u, hfound, hfiles⟩ | ⟨hfind, htruncate, hregular, hfiles⟩ := h.found_or_emptied
  · rw [State.mode_of_files hfiles, State.size_of_files hfiles]
    cases hfound with
    | there | link => exact .inl rfl
    | made _ _ hplace hnone =>
      obtain ⟨parent, entries, hd⟩ := directory_of_missing hplace hnone
      rw [State.mode_addNamed hd, State.size_addNamed hd]
      split
      · exact .inr (.inl ⟨rfl, rfl, ‹_›⟩)
      · exact .inl rfl
    | unnamed =>
      rw [State.mode, State.inode_addInode]
      split
      · exact .inr (.inl ⟨by simp [State.addInode], rfl, ‹_›⟩)
      · exact .inl rfl
  · rw [State.mode_of_files hfiles, State.size_of_files hfiles, State.mode, State.inode_emptied]
    split
    · rename_i hij
      obtain ⟨rfl, -⟩ := hij
      exact .inr (.inr ⟨s.size_emptied pid i, htruncate, hfind, hregular, rfl, rfl⟩)
    · exact .inl rfl

theorem keepsModes (h : Gives s pid path flags fd t i) : s.KeepsModes t pid path flags := by
  intro j hj
  obtain hsame | ⟨-, rfl, rfl⟩ | ⟨-, htruncate, hfind, hregular, rfl, hmode⟩ := h.modes j
  · exact .inl hsame
  · exact absurd hj (Nat.lt_irrefl _)
  · exact .inr ⟨htruncate, hfind, hregular, hmode⟩

theorem of_nothing (h : Gives s pid path flags fd t i)
    (hnothing : ¬∃ i, Walk.find s pid true path = .ok i) :
    (flags.has .create = true ∧ flags.has .pathOnly = false ∧ i = s.inodes.size ∧
      ∃ mode, s.Makes t pid path mode) ∨
    (flags.has .pathOnly = true ∧ flags.has .noFollow = true ∧ t.files = s.files) := by
  obtain ⟨u, hfound, hfiles⟩ | ⟨hfind, -⟩ := h.found_or_emptied
  · cases hfound with
    | there hfind => exact (hnothing ⟨i, hfind⟩).elim
    | link _ hpath hfollow => exact .inr ⟨hpath, hfollow, hfiles⟩
    | @made place name mode hcreate hpath hplace hnone hname hslashed =>
      exact .inl ⟨hcreate, hpath, rfl, mode,
        ⟨place, name, hplace, hnone, hname, hslashed, hfiles⟩, h.processes⟩
    | unnamed _ hfind => exact (hnothing ⟨_, hfind⟩).elim
  · exact (hnothing ⟨i, hfind⟩).elim

end Kernel.Sys.Gives

namespace Descriptor

variable {pid : Pid} {s t : State} {file : File} {flags : OpenFlags} {perm : Mode}

/-- A file that is made gets exactly the permissions asked for, but for the set-group bit of a group
that the process is not in, and the others keep theirs. -/
theorem openFile_permissions {r : Except Failure Descriptor} (hpid : (s.process? pid).isSome)
    (h : (World.kernel pid).Returns (openFile file flags perm).run s r t) :
    (∀ d, r = .ok d → (∃ fd, d = .owning fd file.name ∧ (t.fileOf? pid fd).isSome) ∧
      ((∃ i, Walk.find s pid true file.path = .ok i) → s.KeepsModes t pid file.path flags) ∧
      ((¬∃ i, Walk.find s pid true file.path = .ok i) →
        (s.Makes t pid file.path (t.granted pid s.inodes.size perm) ∧
          Walk.find t pid true file.path = .ok s.inodes.size ∧
          t.mode s.inodes.size = t.granted pid s.inodes.size perm ∧
          ∀ i < s.inodes.size, t.mode i = s.mode i) ∨
        (flags.has .pathOnly = true ∧ flags.has .noFollow = true ∧ t.files = s.files))) ∧
    ∀ e, r = .error (.openFailed file.name e) → t = s := by
  cases (openFile_leaves pid s file flags perm).returns h with
  | refused => exact ⟨nofun, fun _ _ => rfl⟩
  | unset => exact ⟨nofun, fun _ h => nomatch h⟩
  | @kept fd i _ hcreate hgives =>
    refine ⟨?_, nofun⟩
    rintro _ ⟨⟩
    refine ⟨⟨fd, rfl, by rw [hgives.file hpid]; rfl⟩, fun _ => hgives.keepsModes,
      fun hnothing => ?_⟩
    obtain ⟨hc, -⟩ | hlink := hgives.of_nothing hnothing
    · exact (hnothing (hcreate hc)).elim
    · exact .inr hlink
  | @set fd i u f hnothing hgives hf hpath =>
    obtain rfl := Option.some.inj ((hgives.file hpid).symm.trans hf)
    refine ⟨?_, nofun⟩
    rintro _ ⟨⟩
    refine ⟨⟨fd, rfl, ?_⟩, fun hfound => (hnothing hfound).elim, fun _ => .inl ?_⟩
    · have hfile (m : Mode) : (u.setMode i m).fileOf? pid fd = u.fileOf? pid fd := rfl
      rw [hfile, hf]
      rfl
    · obtain ⟨-, -, rfl, mode, hmakes⟩ | ⟨hpathOnly, -⟩ := hgives.of_nothing hnothing
      · have hset := hmakes.setMode (u.granted pid s.inodes.size perm)
        rw [State.granted_setMode]
        exact ⟨hset, hset.leads, hset.mode, fun i => hset.others⟩
      · rw [Sys.effective_has (by decide)] at hpath
        exact absurd (hpath.symm.trans hpathOnly) nofun

def shelf : State where
  inodes := #[⟨.directory 0 [([109], 1), ([108], 2)], 0o755, 0⟩,
    ⟨.regular ⟨#[]⟩ .empty, 0o4755, 0⟩, ⟨.symlink [120], 0o777, 0⟩]
  processes := [{ pid := 1, parent := 0 }]

def sharedShelf : State where
  inodes := #[⟨.directory 0 [], 0o2777, 50⟩]
  processes := [{ pid := 1, parent := 0 }]

/-- Neither the creation mask nor the set-id bit asked for makes a difference. -/
theorem openFile_permissions_of_new : ∃ t d,
    (World.kernel 1).Returns (openFile ⟨[110]⟩ (.writeOnly ||| .create) 0o4666).run shelf (.ok d)
      t ∧ Walk.find t 1 true [110] = .ok 3 ∧ t.mode 3 = 0o4666 := by
  have hallows : ∃ t, (World.kernel 1).Allows shelf [⟨.probe [110], none⟩,
      ⟨.openFile [110] (.writeOnly ||| .create) 0o4666, .ok 0⟩, ⟨.changeMode 0 0o4666, .ok ()⟩] t :=
    ⟨_, .answer (.inl (by cbv)) (.answer (.inl (by cbv)) (.answer (.inl (by cbv)) (.nil _)))⟩
  obtain ⟨t, hallows⟩ := hallows
  have hreturns := hallows.returns (p := (openFile ⟨[110]⟩ (.writeOnly ||| .create) 0o4666).run)
    (a := .ok (.owning 0 "n")) (by decide +kernel)
  have hnothing : ¬∃ i, Walk.find shelf 1 true [110] = .ok i := by
    have hmissing : Walk.find shelf 1 true [110] = .error .ENOENT := by cbv
    simp [hmissing]
  obtain ⟨-, hleads, hmode, -⟩ | ⟨hpath, -⟩ :=
    ((openFile_permissions rfl hreturns).1 _ rfl).2.2 hnothing
  · have hplain (c : Kernel.Credentials) (g : Kernel.GroupId) : c.granted g 0o4666 = 0o4666 := by
      unfold Kernel.Credentials.granted
      split <;> rfl
    exact ⟨t, _, hreturns, hleads, hmode.trans (hplain _ _)⟩
  · exact absurd hpath (by decide)

/-- A file that is cut to nothing loses its set-id bit, a new one in a group of others does not get
the bit of the group, and a link that leads nowhere can be opened itself without anything being
made. -/
theorem openFile_takes_set_id :
    (∃ t d, (World.kernel 1).Returns (openFile ⟨[109]⟩ (.writeOnly ||| .truncate) 0o600).run shelf
        (.ok d) t ∧
      Walk.find shelf 1 true [109] = .ok 1 ∧ shelf.mode 1 = 0o4755 ∧ t.mode 1 = 0o755) ∧
    (∃ t d, (World.kernel 1).Returns (openFile ⟨[110]⟩ (.writeOnly ||| .create) 0o2755).run
        sharedShelf (.ok d) t ∧
      Walk.find sharedShelf 1 true [110] = .error .ENOENT ∧ Walk.find t 1 true [110] = .ok 1 ∧
      t.mode 1 = 0o755) ∧
    ∃ t d, (World.kernel 1).Returns (openFile ⟨[108]⟩ (.pathOnly ||| .noFollow) 0o600).run shelf
        (.ok d) t ∧
      Walk.find shelf 1 true [108] = .error .ENOENT ∧ t.inodes.size = shelf.inodes.size := by
  have hcut : ∃ t, (World.kernel 1).Allows shelf [⟨.probe [109], some .regular⟩,
      ⟨.openFile [109] (.writeOnly ||| .truncate) 0o600, .ok 0⟩] t ∧ t.mode 1 = 0o755 :=
    ⟨_, .answer (.inl (by cbv)) (.answer (.inl (by cbv)) (.nil _)), by cbv⟩
  have hshared : ∃ t, (World.kernel 1).Allows sharedShelf [⟨.probe [110], none⟩,
      ⟨.openFile [110] (.writeOnly ||| .create) 0o2755, .ok 0⟩,
      ⟨.changeMode 0 0o2755, .ok ()⟩] t ∧ Walk.find t 1 true [110] = .ok 1 ∧ t.mode 1 = 0o755 :=
    ⟨_, .answer (.inl (by cbv)) (.answer (.inl (by cbv)) (.answer (.inl (by cbv)) (.nil _))),
      by cbv, by cbv⟩
  have hlink : ∃ t, (World.kernel 1).Allows shelf [⟨.probe [108], none⟩,
      ⟨.openFile [108] (.pathOnly ||| .noFollow) 0o600, .ok 0⟩] t ∧
        t.inodes.size = shelf.inodes.size :=
    ⟨_, .answer (.inl (by cbv)) (.answer (.inl (by cbv)) (.nil _)), by cbv⟩
  obtain ⟨t, hcut, hmode⟩ := hcut
  obtain ⟨u, hlink, hsize⟩ := hlink
  obtain ⟨v, hshared, hleads, hshown⟩ := hshared
  exact ⟨⟨t, .owning 0 "m", hcut.returns (by decide +kernel), by cbv, by cbv, hmode⟩,
    ⟨v, .owning 0 "n", hshared.returns (by decide +kernel), by cbv, hleads, hshown⟩,
    u, .owning 0 "l", hlink.returns (by decide +kernel), by cbv, hsize⟩

end Descriptor

end OwnedHandles
