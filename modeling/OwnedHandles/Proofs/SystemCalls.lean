import OwnedHandles.Kernel.Files
import OwnedHandles.Proofs.Paths

namespace OwnedHandles

theorem OpenFlags.has_and (f g h : OpenFlags) : (f &&& g).has h = (f.has h && g.has h) := by
  have hboth : f &&& g &&& h = h ↔ f &&& h = h ∧ g &&& h = h := by
    constructor
    · intro hh
      constructor
      · rw [← hh, ← BitVec.and_assoc, ← BitVec.and_assoc, BitVec.and_self]
      · rw [← hh, ← BitVec.and_assoc, BitVec.and_comm f g, ← BitVec.and_assoc, BitVec.and_self]
    · rintro ⟨hf, hg⟩
      rw [BitVec.and_assoc, hg, hf]
  simp [has, hboth]

theorem OpenFlags.has_trans {f g h : OpenFlags} (hg : f.has g = true) (hh : g.has h = true) :
    f.has h = true := by
  simp only [has, decide_eq_true_eq] at hg hh ⊢
  rw [← hh, ← BitVec.and_assoc, hg]

namespace Kernel

namespace Sys

variable {α β : Type} {s t u : State} {h : Halt} {e : Errno} {P : α → Prop} {Q : β → Prop}

/-- However the call comes out in this state, it is like this. -/
def Ensures (p : Sys α) (s : State) (R : Except Halt α → State → Prop) : Prop :=
  R (p.run s).1 (p.run s).2

/-- The call leaves the state alone, and its value is like this if it has one. -/
def Checks (p : Sys α) (s : State) (P : α → Prop) : Prop :=
  p.Ensures s fun r t => t = s ∧ ∀ a, r = .ok a → P a

section Rules

variable {p : Sys α} {f : α → Sys β} {R : Except Halt β → State → Prop}

theorem ensures_bind : (p >>= f).Ensures s R ↔ p.Ensures s fun r t => match r with
    | .ok a => (f a).Ensures t R
    | .error h => R (.error h) t := by
  have hrun : (p >>= f).run s = match p.run s with
      | (.ok a, u) => (f a).run u
      | (.error h, u) => (.error h, u) := by
    change ExceptT.bindCont f (p.run s).1 (p.run s).2 = _
    rcases p.run s with ⟨a | a, u⟩ <;> rfl
  unfold Ensures
  rw [hrun]
  rcases p.run s with ⟨h | a, u⟩ <;> rfl

theorem Ensures.weaken {p : Sys α} {R R' : Except Halt α → State → Prop} (hp : p.Ensures s R)
    (h : ∀ r t, R r t → R' r t) : p.Ensures s R' := h _ _ hp

theorem ensures_get_bind {f : State → Sys β} :
    (getThe State >>= f).Ensures s R ↔ (f s).Ensures s R := Iff.rfl

theorem checks_pure {a : α} (ha : P a) : (pure a : Sys α).Checks s P :=
  ⟨rfl, by rintro _ ⟨⟩; exact ha⟩

theorem checks_throw : (throw h : Sys α).Checks s P := ⟨rfl, nofun⟩

theorem checks_fail : (fail e : Sys α).Checks s P := checks_throw

theorem checks_get : (getThe State : Sys State).Checks s (· = s) :=
  ⟨rfl, by rintro _ ⟨⟩; rfl⟩

theorem checks_require (b : Bool) : (require b e).Checks s fun _ => b = true := by
  cases b with
  | true => exact checks_pure rfl
  | false => exact checks_fail

theorem checks_ofExcept (x : Except Errno α) : (ofExcept x).Checks s fun a => x = .ok a := by
  cases x with
  | ok a => exact checks_pure rfl
  | error e => exact checks_fail

theorem Checks.weaken {P' : α → Prop} (hp : p.Checks s P) (h : ∀ a, P a → P' a) : p.Checks s P' :=
  ⟨hp.1, fun a ha => h a (hp.2 a ha)⟩

theorem Checks.next (hp : p.Checks s P) (hf : ∀ a, P a → (f a).Ensures s R)
    (hfails : ∀ h, R (.error h) s) : (p >>= f).Ensures s R := by
  refine ensures_bind.mpr ?_
  unfold Checks Ensures at hp
  unfold Ensures
  obtain ⟨hsame, hvalue⟩ := hp
  cases hr : (p.run s).1 with
  | ok a =>
    rw [hsame]
    exact hf a (hvalue a hr)
  | error h =>
    rw [hsame]
    exact hfails h

theorem Checks.bind (hp : p.Checks s P) (hf : ∀ a, P a → (f a).Checks s Q) :
    (p >>= f).Checks s Q :=
  hp.next hf fun _ => ⟨rfl, nofun⟩

theorem Checks.andThen (hp : p.Checks s P) (hf : ∀ a, (f a).Checks s Q) : (p >>= f).Checks s Q :=
  hp.bind fun a _ => hf a

end Rules

section Looking

variable {pid : Pid} {path : Bytes} {fd : Fd} {flags : OpenFlags} {place : Place} {i : InodeId}

theorem probe_ensures : (probe pid path).Ensures s fun r t => t = s ∧ ∃ kind, r = .ok kind ∧
    (kind.isSome = true ↔ ∃ i, Walk.find s pid true path = .ok i) := by
  refine ensures_get_bind.mpr ?_
  split
  · rename_i i hi
    exact ⟨rfl, _, rfl, by simp [hi]⟩
  · rename_i e he
    exact ⟨rfl, _, rfl, by simp [he]⟩

theorem handle_checks : (handle pid fd).Checks s fun h => s.handle? pid fd = some h := by
  refine ensures_get_bind.mpr ?_
  split
  · exact checks_pure ‹_›
  · exact checks_fail

theorem reserve_checks : (reserve pid).Checks s fun _ => True :=
  ensures_get_bind.mpr ((checks_require _).andThen fun _ => checks_pure trivial)

theorem checkFlags_checks : (checkFlags flags).Checks s fun _ =>
    (flags.has .create && flags.has .directory) = false :=
  (checks_require _).bind fun _ hcreate => (checks_require _).weaken fun _ _ => by
    simpa only [Bool.not_eq_true'] using hcreate

theorem permit_checks : (permit u flags i).Checks s fun _ =>
    (flags.has .create = true → u.isDirectory i = false) ∧
      (flags.has .pathOnly = false → ¬Walk.IsLink u i) := by
  have hrest : Checks (if flags.has .pathOnly then
        require (!(flags.has .directory && !u.isDirectory i)) .ENOTDIR
      else do
        require ((u.content i).kind ≠ .symlink) .ELOOP
        require (!(flags.has .directory && !u.isDirectory i)) .ENOTDIR
        require (!(u.isDirectory i && wantsWrite flags)) .EISDIR
        require (!wantsRead flags || (u.inode i).mode.ownerRead) .EACCES
        require (!wantsWrite flags || (u.inode i).mode.ownerWrite) .EACCES) s
      fun _ => flags.has .pathOnly = false → ¬Walk.IsLink u i := by
    split
    · rename_i hpath
      exact (checks_require _).weaken fun _ _ hno => absurd (hno.symm.trans hpath) nofun
    · refine (checks_require _).bind fun _ hkind => (checks_require _).andThen fun _ =>
        (checks_require _).andThen fun _ => (checks_require _).andThen fun _ =>
        (checks_require _).weaken fun _ _ _ hlink => ?_
      obtain ⟨target, htarget⟩ := hlink
      simp [htarget, Content.kind] at hkind
  change Checks (if _ then _ else _) _ _
  by_cases hcreate : flags.has .create = true
  · rw [if_pos hcreate]
    exact (checks_require _).andThen fun _ => (checks_require _).bind fun _ hdirectory =>
      hrest.weaken fun _ h => ⟨fun _ => by simpa using hdirectory, h⟩
  · rw [if_neg hcreate]
    exact hrest.weaken fun _ h => ⟨fun hc => absurd hc hcreate, h⟩

theorem meet_checks : (meet u flags i).Checks s fun _ => True := by
  unfold meet
  split
  · split
    · exact checks_throw
    · exact checks_pure trivial
  · split
    · split
      · exact checks_fail
      · exact checks_throw
    · exact checks_pure trivial
  · exact checks_pure trivial
  · exact checks_fail

/-- What is known of the place that a path names for an opening. A link at its end is left alone
only if the flags say so. -/
def Located (s : State) (pid : Pid) (path : Bytes) (flags : OpenFlags) (p : Place) : Prop :=
  (flags.has .create = true ∧ p.slashed = true) ∨
    ((∀ i, p.inode = some i → ¬Walk.IsLink s i) → Walk.place s pid true path = .ok p) ∧
    (Walk.place s pid true path = .ok p ∨ flags.has .noFollow = true ∨ flags.has .create = true)

theorem placeToOpen_checks :
    (placeToOpen pid path flags).Checks s (Located s pid path flags) := by
  refine ensures_get_bind.mpr ?_
  split
  · rename_i hslash
    simp only [Bool.and_eq_true] at hslash
    refine (checks_ofExcept _).weaken fun p hp => .inl ⟨hslash.1, ?_⟩
    unfold Walk.entry at hp
    cases hcheck : Walk.check path with
    | error e => simp [hcheck, bind, Except.bind] at hp
    | ok _ =>
      simp only [hcheck, bind, Except.bind] at hp
      split at hp
      · cases hp
      · obtain rfl := Except.ok.inj hp
        exact hslash.2
  · refine (checks_ofExcept _).weaken fun p hp => .inr ?_
    cases hfollow : !flags.has .noFollow && !(flags.has .create && flags.has .exclusive) with
    | true =>
      rw [hfollow] at hp
      exact ⟨fun _ => hp, .inl hp⟩
    | false =>
      rw [hfollow] at hp
      refine ⟨Walk.place_following hp, .inr ?_⟩
      cases hno : flags.has .noFollow <;> cases hcreate : flags.has .create <;> simp_all

end Looking

section Changing

variable {pid : Pid} {path : Bytes} {fd : Fd} {flags : OpenFlags} {place : Place} {i : InodeId}
  {mode : Mode}

theorem settle_ensures : (settle pid flags i).Ensures s fun r t => match r with
    | .error _ => t = s ∧ ∀ data slack, s.content i ≠ .regular data slack
    | .ok _ => t = s ∨ flags.has .truncate = true ∧
        (∃ data slack, s.content i = .regular data slack) ∧ t = s.emptied pid i := by
  refine ensures_get_bind.mpr ?_
  split
  · exact .inl rfl
  split
  · rename_i data slack hregular
    split
    · exact .inr ⟨‹_›, ⟨data, slack, hregular⟩, rfl⟩
    · exact .inl rfl
  · rename_i b hfifo
    refine Ensures.weaken meet_checks fun r t h => ?_
    cases r with
    | ok _ => exact .inl h.1
    | error _ => exact ⟨h.1, fun data slack hregular => nomatch hfifo.symm.trans hregular⟩
  · exact .inl rfl

theorem openAt_ensures : (openAt pid flags mode place).Ensures s fun r t => match r with
    | .error _ => t = s
    | .ok i =>
        (∃ name m, flags.has .create = true ∧ place.inode = none ∧ place.name = some name ∧
          place.slashed = false ∧ i = s.inodes.size ∧
          t = (s.addNamed place.directory name
            ⟨.ofBytes [], m, s.groupIn pid place.directory⟩).1) ∨
        (t = s ∧ Walk.existing s place = .ok i ∧
          (flags.has .create = true → s.isDirectory i = false) ∧
          (flags.has .pathOnly = false → ¬Walk.IsLink s i)) := by
  refine ensures_get_bind.mpr ((checks_require _).next (fun _ hslashed => ?_) fun _ => rfl)
  split
  · rename_i name hinode hname
    refine (checks_require _).next (fun _ hcreate => ensures_get_bind.mpr
      ((checks_require _).next (fun _ _ => ?_) fun _ => rfl)) fun _ => rfl
    have hplain : place.slashed = false := by simpa [hcreate, hname] using hslashed
    exact .inl ⟨name, _, hcreate, hinode, hname, hplain, rfl, rfl⟩
  · exact (checks_ofExcept _).next (fun i hi => permit_checks.next
      (fun _ hpermit => .inr ⟨rfl, hi, hpermit⟩) fun _ => rfl) fun _ => rfl

theorem openUnnamed_ensures : (openUnnamed pid mode place).Ensures s fun r t => match r with
    | .error _ => t = s
    | .ok i => ∃ directory m, Walk.existing s place = .ok directory ∧
        s.isDirectory directory = true ∧ i = s.inodes.size ∧
        t = (s.addInode ⟨.ofBytes [], m, s.groupIn pid directory⟩).1 := by
  refine ensures_get_bind.mpr ((checks_ofExcept _).next (fun directory hdirectory => ?_)
    fun _ => rfl)
  refine (checks_require _).next (fun _ hkind => (checks_require _).next (fun _ _ => ?_)
    fun _ => rfl) fun _ => rfl
  exact ⟨directory, _, hdirectory, hkind, rfl, rfl⟩

theorem changeMode_ensures : (changeMode pid fd mode).Ensures s fun r t => match r with
    | .error _ => t = s
    | .ok _ => ∃ f, s.fileOf? pid fd = some f ∧ f.flags.has .pathOnly = false ∧
        t = s.setMode f.inode (s.granted pid f.inode mode) := by
  have hfile : (openFileOf pid fd).Checks s fun x => s.fileOf? pid fd = some x.2 :=
    handle_checks.bind fun h hh => ensures_get_bind.mpr (checks_pure (by simp [State.fileOf?, hh]))
  refine hfile.next (fun x hx => (checks_require _).next (fun _ hpath => ?_) fun _ => rfl)
    fun _ => rfl
  exact ⟨x.2, hx, by simpa using hpath, rfl⟩

theorem close_ensures : (close pid fd).Ensures s fun _ t =>
    t = s ∨ t = s.closeHandles pid fun h => h.1 = fd :=
  handle_checks.next (fun _ _ => .inr rfl) fun _ => .inl rfl

end Changing

section Opening

variable {pid : Pid} {path : Bytes} {flags : OpenFlags} {mode : Mode}

theorem has_of_effective {f : OpenFlags} (hf : pathOnlyFlags.has f = false)
    (h : (effectiveFlags flags).has f = true) :
    flags.has f = true ∧ flags.has .pathOnly = false := by
  unfold effectiveFlags at h
  split at h
  · rw [OpenFlags.has_and, hf, Bool.and_false] at h
    cases h
  · exact ⟨h, eq_false_of_ne_true ‹_›⟩

theorem effective_has {f : OpenFlags} (hf : pathOnlyFlags.has f = true) :
    (effectiveFlags flags).has f = flags.has f := by
  unfold effectiveFlags
  split
  · rw [OpenFlags.has_and, hf, Bool.and_true]
  · rfl

/-- The file at a path, which may have been made for the opening. A path that leads to nothing
leads to the new file afterwards, or it ends at a link that is opened itself. -/
inductive Found (s : State) (pid : Pid) (path : Bytes) (flags : OpenFlags) :
    InodeId → State → Prop
  | there {i} : Walk.find s pid true path = .ok i → Found s pid path flags i s
  | link {i} : Walk.IsLink s i → flags.has .pathOnly = true → flags.has .noFollow = true →
      Found s pid path flags i s
  | made {place name mode} : flags.has .create = true → flags.has .pathOnly = false →
      Walk.place s pid true path = .ok place → place.inode = none → place.name = some name →
      place.slashed = false → Found s pid path flags s.inodes.size
        (s.addNamed place.directory name ⟨.ofBytes [], mode, s.groupIn pid place.directory⟩).1
  | unnamed {directory mode} : flags.has .temporary = true →
      Walk.find s pid true path = .ok directory → s.isDirectory directory = true →
      Found s pid path flags s.inodes.size
        (s.addInode ⟨.ofBytes [], mode, s.groupIn pid directory⟩).1

inductive Opened (s : State) (pid : Pid) (path : Bytes) (flags : OpenFlags) :
    InodeId → Array Inode → Prop
  | asFound {i u} : Found s pid path flags i u → Opened s pid path flags i u.files
  | emptied {i data slack} : Walk.find s pid true path = .ok i → flags.has .truncate = true →
      s.content i = .regular data slack → Opened s pid path flags i (s.emptied pid i).files

structure Gives (s : State) (pid : Pid) (path : Bytes) (flags : OpenFlags) (fd : Fd) (t : State)
    (i : InodeId) : Prop where
  opened : Opened s pid path flags i t.files
  processes : s.SameProcesses t
  file : (s.process? pid).isSome →
    t.fileOf? pid fd = some { inode := i, flags := effectiveFlags flags }

theorem directory_of_missing {place : Place} (h : Walk.place s pid true path = .ok place)
    (hnone : place.inode = none) :
    ∃ parent entries, s.content place.directory = .directory parent entries := by
  obtain ⟨-, hleads⟩ := Walk.place_eq_ok_iff.mp h
  obtain ⟨_, -, hnames⟩ := hleads.missing_name hnone
  obtain ⟨parent, entries, hsearch, -⟩ := hnames.entry
  exact ⟨parent, entries, Walk.content_of_search hsearch⟩

theorem Found.processes {i : InodeId} (h : Found s pid path flags i u) : s.SameProcesses u := by
  cases h with
  | there | link => exact .refl s
  | made _ _ hplace hnone =>
    obtain ⟨parent, entries, hd⟩ := directory_of_missing hplace hnone
    exact .addNamed hd _ _
  | unnamed => exact ⟨rfl, rfl, fun _ => rfl, fun _ => rfl⟩

theorem Found.same_or_regular {i : InodeId} (h : Found s pid path flags i u) :
    u = s ∨ ∃ data slack, u.content i = .regular data slack := by
  cases h with
  | there | link => exact .inl rfl
  | made _ _ hplace hnone =>
    obtain ⟨parent, entries, hd⟩ := directory_of_missing hplace hnone
    refine .inr ⟨⟨#[]⟩, .empty, ?_⟩
    rw [State.content, State.inode_addNamed hd, if_pos rfl]
    rfl
  | unnamed =>
    refine .inr ⟨⟨#[]⟩, .empty, ?_⟩
    rw [State.content, State.inode_addInode, if_pos rfl]
    rfl

theorem Found.emptied {i : InodeId} {data slack : ByteArray} (h : Found s pid path flags i u)
    (htruncate : flags.has .truncate = true) (hregular : u.content i = .regular data slack) :
    Opened s pid path flags i (u.emptied pid i).files := by
  cases h with
  | there hfind => exact .emptied hfind htruncate hregular
  | link hlink =>
    obtain ⟨target, htarget⟩ := hlink
    cases htarget.symm.trans hregular
  | @made place name mode hcreate hpath hplace hnone hname hslashed =>
    obtain ⟨parent, entries, hd⟩ := directory_of_missing hplace hnone
    rw [State.files_emptied_addNamed hd]
    exact .asFound (.made hcreate hpath hplace hnone hname hslashed)
  | @unnamed directory mode htemporary hfind hdirectory =>
    rw [State.files_emptied_addInode]
    exact .asFound (.unnamed htemporary hfind hdirectory)

theorem settle_found {i : InodeId} (h : Found s pid path flags i u) :
    (settle pid (effectiveFlags flags) i).Ensures u fun r t => match r with
      | .error _ => t = s
      | .ok _ => Opened s pid path flags i t.files ∧ s.SameProcesses t := by
  refine settle_ensures.weaken fun r t ht => ?_
  cases r with
  | error e =>
    obtain ⟨rfl, hother⟩ := ht
    obtain rfl | ⟨data, slack, hregular⟩ := h.same_or_regular
    · rfl
    · exact (hother data slack hregular).elim
  | ok _ =>
    obtain rfl | ⟨htruncate, ⟨data, slack, hregular⟩, rfl⟩ := ht
    · exact ⟨.asFound h, h.processes⟩
    · refine ⟨h.emptied (has_of_effective (by decide) htruncate).1 hregular, ?_⟩
      exact ⟨h.processes.nextPid, h.processes.pids, h.processes.directory, h.processes.credentials⟩

theorem openAt_found {place : Place} (hplace : Located s pid path (effectiveFlags flags) place) :
    (openAt pid (effectiveFlags flags) mode place).Ensures s fun r t => match r with
      | .error _ => t = s
      | .ok i => Found s pid path flags i t := by
  refine openAt_ensures.weaken fun r t ht => ?_
  cases r with
  | error e => exact ht
  | ok i =>
    obtain ⟨name, m, hcreate, hnone, hname, hslashed, rfl, rfl⟩ |
      ⟨rfl, hexisting, hdirectory, hlink⟩ := ht
    · obtain ⟨hgiven, hpath⟩ := has_of_effective (by decide) hcreate
      obtain ⟨-, hs⟩ | ⟨hfollow, -⟩ := hplace
      · exact absurd (hslashed.symm.trans hs) nofun
      · exact .made hgiven hpath (hfollow fun i hi => absurd (hnone.symm.trans hi) nofun) hnone
          hname hslashed
    · obtain ⟨hi, hslash⟩ := Walk.existing_eq_ok_iff.mp hexisting
      obtain ⟨hcreate, hs⟩ | ⟨hfollow, hwhy⟩ := hplace
      · exact absurd ((hdirectory hcreate).symm.trans (hslash hs)) nofun
      have hthere (hp : Walk.place t pid true path = .ok place) : Found t pid path flags i t :=
        .there (Walk.find_eq_ok_iff.mpr ⟨place, hp, hexisting⟩)
      by_cases hl : Walk.IsLink t i
      · have hpath : flags.has .pathOnly = true := by
          rw [← effective_has (by decide)]
          by_contra hno
          exact hlink (eq_false_of_ne_true hno) hl
        obtain hp | hno | hcreate := hwhy
        · exact hthere hp
        · exact .link hl hpath (by rwa [effective_has (by decide)] at hno)
        · exact absurd (hpath.symm.trans (has_of_effective (by decide) hcreate).2) nofun
      · refine hthere (hfollow fun j hj => ?_)
        obtain rfl := Option.some.inj (hi.symm.trans hj)
        exact hl

theorem openUnnamed_found {place : Place} (hplace : Located s pid path (effectiveFlags flags) place)
    (htemporary : (effectiveFlags flags).has .temporary = true)
    (hflags : ((effectiveFlags flags).has .create &&
      (effectiveFlags flags).has .directory) = false) :
    (openUnnamed pid mode place).Ensures s fun r t => match r with
      | .error _ => t = s
      | .ok i => Found s pid path flags i t := by
  refine openUnnamed_ensures.weaken fun r t ht => ?_
  cases r with
  | error e => exact ht
  | ok i =>
    obtain ⟨directory, m, hexisting, hdirectory, rfl, rfl⟩ := ht
    have hmask : OpenFlags.temporary.has .directory = true := by decide
    obtain ⟨hcreate, -⟩ | ⟨hfollow, -⟩ := hplace
    · rw [hcreate, OpenFlags.has_trans htemporary hmask] at hflags
      cases hflags
    have hno : ¬Walk.IsLink s directory := by
      rintro ⟨target, htarget⟩
      simp [State.isDirectory, htarget, Content.kind] at hdirectory
    have hp := hfollow fun j hj => by
      obtain rfl := Option.some.inj ((Walk.existing_eq_ok_iff.mp hexisting).1.symm.trans hj)
      exact hno
    exact .unnamed (has_of_effective (by decide) htemporary).1
      (Walk.find_eq_ok_iff.mpr ⟨place, hp, hexisting⟩) hdirectory

theorem openFile_ensures : (openFile pid path flags mode).Ensures s fun r t => match r with
    | .error _ => t = s
    | .ok fd => ∃ i, Gives s pid path flags fd t i := by
  have hend (fd : Fd) (i : InodeId) (u : State) (h : Found s pid path flags i u) :
      Ensures (do
        settle pid (effectiveFlags flags) i
        install pid fd { inode := i, flags := effectiveFlags flags }
          ((effectiveFlags flags).has .closeOnExec)
        return fd) u fun r t => match r with
          | .error _ => t = s
          | .ok fd => ∃ i, Gives s pid path flags fd t i := by
    refine ensures_bind.mpr ((settle_found h).weaken fun r t ht => ?_)
    cases r with
    | error e => exact ht
    | ok _ =>
      obtain ⟨hopened, hsame⟩ := ht
      refine ⟨i, (State.files_installed t pid fd _ _).symm ▸ hopened,
        hsame.trans (.installed t pid fd _ _), fun hpid => ?_⟩
      exact State.fileOf?_installed ((hsame.isSome pid).trans hpid) fd _ _
  change Ensures (if _ then _ else _) s _
  split
  · rfl
  refine checkFlags_checks.next (fun _ hflags => (checks_ofExcept _).next (fun _ _ =>
    reserve_checks.next (fun fd _ => placeToOpen_checks.next (fun place hplace => ?_)
    fun _ => rfl) fun _ => rfl) fun _ => rfl) fun _ => rfl
  change Ensures (if _ then _ else _) s _
  split
  · refine ensures_bind.mpr ((openUnnamed_found hplace ‹_› hflags).weaken fun r u hu => ?_)
    cases r with
    | error e => exact hu
    | ok i => exact hend fd i u hu
  · refine ensures_bind.mpr ((openAt_found hplace).weaken fun r u hu => ?_)
    cases r with
    | error e => exact hu
    | ok i => exact hend fd i u hu

end Opening

end Sys

end Kernel

end OwnedHandles
