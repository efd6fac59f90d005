import Mathlib.Tactic.ByContra
import OwnedHandles.Kernel.Files

namespace OwnedHandles.Kernel

def Content.lasting : Content → Content
  | .fifo _ => .fifo {}
  | c => c

def Inode.lasting (n : Inode) : Inode := { n with content := n.content.lasting }

namespace State

variable {s t : State} {i j : InodeId}

def files (s : State) : Array Inode := s.inodes.map Inode.lasting

def mode (s : State) (i : InodeId) : Mode := (s.inode i).mode

def group (s : State) (i : InodeId) : GroupId := (s.inode i).group

@[simp] theorem size_files (s : State) : s.files.size = s.inodes.size := by simp [files]

theorem files_ext (hsize : t.inodes.size = s.inodes.size)
    (h : ∀ i, (t.inode i).lasting = (s.inode i).lasting) : t.files = s.files := by
  refine Array.ext (by simp [hsize]) fun i ht hs => ?_
  have hi := h i
  rw [size_files] at ht hs
  simpa [inode, files, ht, hs] using hi

theorem inode_of_files (h : t.files = s.files) (i : InodeId) :
    (t.inode i).lasting = (s.inode i).lasting := by
  have hi : t.files.getD i (default : Inode).lasting =
      s.files.getD i (default : Inode).lasting := by rw [h]
  simpa [files, inode, Array.getD_eq_getD_getElem?, Option.getD_map] using hi

theorem size_of_files (h : t.files = s.files) : t.inodes.size = s.inodes.size := by
  rw [← size_files t, h, size_files]

theorem content_of_files (h : t.files = s.files) (hi : ∀ b, s.content i ≠ .fifo b) :
    t.content i = s.content i := by
  have hlasting : (t.content i).lasting = (s.content i).lasting :=
    congrArg Inode.content (inode_of_files h i)
  generalize t.content i = c at *
  generalize s.content i = c' at *
  cases c <;> cases c' <;> simp_all [Content.lasting]

theorem mode_of_files (h : t.files = s.files) (i : InodeId) : t.mode i = s.mode i := by
  have hi : (t.inode i).lasting.mode = (s.inode i).lasting.mode := by rw [inode_of_files h]
  exact hi

theorem group_of_files (h : t.files = s.files) (i : InodeId) : t.group i = s.group i := by
  have hi : (t.inode i).lasting.group = (s.inode i).lasting.group := by rw [inode_of_files h]
  exact hi

theorem modeAfterWrite_eq (s : State) (pid : Pid) (i : InodeId) :
    s.modeAfterWrite pid i = s.mode i ∨
      ∃ member, s.modeAfterWrite pid i = (s.mode i).afterWrite member := by
  unfold modeAfterWrite Credentials.afterWrite
  split
  · exact .inl rfl
  · exact .inr ⟨_, rfl⟩

section Files

theorem inode_modify (s : State) (i j : InodeId) (f : Inode → Inode) :
    ({ s with inodes := s.inodes.modify i f } : State).inode j =
      if i = j ∧ j < s.inodes.size then f (s.inode j) else s.inode j := by
  simp only [inode, Array.getD_eq_getD_getElem?, Array.getElem?_modify]
  by_cases hij : i = j
  · by_cases hj : j < s.inodes.size <;> simp [hij, hj]
  · simp [hij]

@[simp] theorem size_setMode (s : State) (i : InodeId) (m : Mode) :
    (s.setMode i m).inodes.size = s.inodes.size := by simp [setMode]

@[simp] theorem size_setContent (s : State) (i : InodeId) (c : Content) :
    (s.setContent i c).inodes.size = s.inodes.size := by simp [setContent]

theorem inode_setMode (s : State) (i j : InodeId) (m : Mode) :
    (s.setMode i m).inode j =
      if i = j ∧ j < s.inodes.size then { s.inode j with mode := m } else s.inode j :=
  s.inode_modify i j _

theorem inode_setContent (s : State) (i j : InodeId) (c : Content) :
    (s.setContent i c).inode j =
      if i = j ∧ j < s.inodes.size then { s.inode j with content := c } else s.inode j :=
  s.inode_modify i j _

theorem mode_setMode (s : State) (i j : InodeId) (m : Mode) :
    (s.setMode i m).mode j = if i = j ∧ j < s.inodes.size then m else s.mode j := by
  rw [mode, inode_setMode]
  split <;> rfl

@[simp] theorem group_setMode (s : State) (i j : InodeId) (m : Mode) :
    (s.setMode i m).group j = s.group j := by
  rw [group, inode_setMode]
  split <;> rfl

@[simp] theorem granted_setMode (s : State) (pid : Pid) (i j : InodeId) (m m' : Mode) :
    (s.setMode i m).granted pid j m' = s.granted pid j m' :=
  congrArg (fun g => (s.credentials pid).granted g m') (s.group_setMode i j m)

theorem files_setMode (h : t.files = s.files) (i : InodeId) (m : Mode) :
    (t.setMode i m).files = (s.setMode i m).files := by
  refine files_ext (by simp [size_of_files h]) fun j => ?_
  have hj := inode_of_files h j
  rw [inode_setMode, inode_setMode, size_of_files h]
  split
  · exact congrArg (fun n : Inode => { n with mode := m }) hj
  · exact hj

theorem files_setContent_fifo {b b' : PipeBuffer} (h : s.content i = .fifo b) :
    (s.setContent i (.fifo b')).files = s.files := by
  refine files_ext (by simp) fun j => ?_
  rw [inode_setContent]
  split
  · rename_i hij
    obtain ⟨rfl, -⟩ := hij
    have hfifo : s.inode i = ⟨.fifo b, s.mode i, s.group i⟩ :=
      congrArg (Inode.mk · (s.mode i) (s.group i)) h
    rw [hfifo]
    rfl
  · rfl

@[simp] theorem files_settleFifo (s : State) (i : InodeId) : (s.settleFifo i).files = s.files := by
  unfold settleFifo
  split
  · split
    · rfl
    · exact files_setContent_fifo ‹_›
  · rfl

@[simp] theorem files_closeHandles (s : State) (pid : Pid) (gone : Fd × Handle → Bool) :
    (s.closeHandles pid gone).files = s.files := by
  have hsettle (l : List InodeId) (u : State) : (l.foldl settleFifo u).files = u.files := by
    induction l generalizing u with
    | nil => rfl
    | cons i l ih => rw [List.foldl_cons, ih, files_settleFifo]
  exact hsettle _ _

@[simp] theorem files_putHandle (s : State) (pid : Pid) (fd : Fd) (h : Handle) :
    (s.putHandle pid fd h).files = s.files :=
  s.files_closeHandles pid _

end Files

section Adding

variable {directory parent : InodeId} {name : Bytes} {entries : List (Bytes × InodeId)}

theorem lt_size_of_directory (h : s.content i = .directory parent entries) : i < s.inodes.size := by
  by_contra hi
  have hdefault : s.inode i = default := by simp [inode, Nat.not_lt.mp hi]
  rw [content, hdefault] at h
  cases h

theorem inode_addInode (s : State) (n : Inode) (j : InodeId) :
    (s.addInode n).1.inode j = if j = s.inodes.size then n else s.inode j := by
  simp only [addInode, inode, Array.getD_eq_getD_getElem?, Array.getElem?_push]
  split <;> rfl

theorem addNamed_eq (h : s.content directory = .directory parent entries) (name : Bytes)
    (n : Inode) : (s.addNamed directory name n).1 = (s.addInode n).1.setContent directory
      (.directory parent ((name, s.inodes.size) :: entries.filter fun e => e.1 ≠ name)) := by
  have hd : (s.addInode n).1.content directory = .directory parent entries := by
    rw [content, inode_addInode, if_neg (Nat.ne_of_lt (lt_size_of_directory h))]
    exact h
  change (s.addInode n).1.link directory name s.inodes.size = _
  simp [link, hd]

theorem size_addNamed (h : s.content directory = .directory parent entries) (name : Bytes)
    (n : Inode) : (s.addNamed directory name n).1.inodes.size = s.inodes.size + 1 := by
  rw [addNamed_eq h, size_setContent]
  simp [addInode]

theorem inode_addNamed (h : s.content directory = .directory parent entries) (name : Bytes)
    (n : Inode) (j : InodeId) : (s.addNamed directory name n).1.inode j =
      if j = s.inodes.size then n
      else if j = directory then
        { s.inode directory with
          content :=
            .directory parent ((name, s.inodes.size) :: entries.filter fun e => e.1 ≠ name) }
      else s.inode j := by
  have hlt := lt_size_of_directory h
  have hsize : (s.addInode n).1.inodes.size = s.inodes.size + 1 := by simp [addInode]
  rw [addNamed_eq h, inode_setContent, inode_addInode, hsize]
  by_cases hj : j = directory
  · subst hj
    simp [Nat.ne_of_lt hlt, Nat.lt_succ_of_lt hlt]
  · simp [hj, Ne.symm hj]

theorem files_addNamed (h : t.files = s.files)
    (hd : s.content directory = .directory parent entries) (name : Bytes) (n : Inode) :
    (t.addNamed directory name n).1.files = (s.addNamed directory name n).1.files := by
  have hd' : t.content directory = .directory parent entries :=
    (content_of_files h (by simp [hd])).trans hd
  refine files_ext ?_ fun j => ?_
  · rw [size_addNamed hd, size_addNamed hd', size_of_files h]
  · rw [inode_addNamed hd, inode_addNamed hd', size_of_files h]
    split
    · rfl
    · split
      · exact congrArg₂ (Inode.mk _) (mode_of_files h directory) (group_of_files h directory)
      · exact inode_of_files h j

/-- A file that is made and then given other permissions might as well have been made with them. -/
theorem files_setMode_addNamed (h : s.content directory = .directory parent entries) (name : Bytes)
    (c : Content) (m m' : Mode) (g : GroupId) :
    ((s.addNamed directory name ⟨c, m, g⟩).1.setMode s.inodes.size m').files =
      (s.addNamed directory name ⟨c, m', g⟩).1.files := by
  refine files_ext (by simp [size_addNamed h]) fun j => ?_
  rw [inode_setMode, size_addNamed h, inode_addNamed h, inode_addNamed h]
  by_cases hj : j = s.inodes.size
  · simp [hj]
  · simp [hj, Ne.symm hj]

def emptied (s : State) (pid : Pid) (i : InodeId) : State :=
  (s.setContent i (.regular .empty .empty)).setMode i (s.modeAfterWrite pid i)

theorem inode_emptied (s : State) (pid : Pid) (i j : InodeId) : (s.emptied pid i).inode j =
    if i = j ∧ j < s.inodes.size then ⟨.regular .empty .empty, s.modeAfterWrite pid i, s.group i⟩
    else s.inode j := by
  rw [emptied, inode_setMode, inode_setContent, size_setContent]
  split
  · rename_i h
    obtain ⟨rfl, -⟩ := h
    rfl
  · rfl

@[simp] theorem size_emptied (s : State) (pid : Pid) (i : InodeId) :
    (s.emptied pid i).inodes.size = s.inodes.size := by simp [emptied]

theorem credentials_addNamed (h : s.content directory = .directory parent entries) (name : Bytes)
    (n : Inode) (pid : Pid) :
    (s.addNamed directory name n).1.credentials pid = s.credentials pid := by
  rw [addNamed_eq h]
  rfl

theorem files_emptied_addNamed (h : s.content directory = .directory parent entries) (name : Bytes)
    (pid : Pid) (m : Mode) (g : GroupId) :
    ((s.addNamed directory name ⟨.ofBytes [], m, g⟩).1.emptied pid s.inodes.size).files =
      (s.addNamed directory name ⟨.ofBytes [], (s.credentials pid).afterWrite g m, g⟩).1.files := by
  have hnew : (s.addNamed directory name ⟨.ofBytes [], m, g⟩).1.inode s.inodes.size =
      ⟨.ofBytes [], m, g⟩ := by simp [inode_addNamed h]
  refine files_ext (by simp [size_addNamed h]) fun j => ?_
  rw [inode_emptied, size_addNamed h, modeAfterWrite, group, hnew, credentials_addNamed h,
    inode_addNamed h, inode_addNamed h]
  by_cases hj : j = s.inodes.size
  · simp [hj]
    rfl
  · simp [hj, Ne.symm hj]

theorem files_emptied_addInode (s : State) (pid : Pid) (m : Mode) (g : GroupId) :
    ((s.addInode ⟨.ofBytes [], m, g⟩).1.emptied pid s.inodes.size).files =
      (s.addInode ⟨.ofBytes [], (s.credentials pid).afterWrite g m, g⟩).1.files := by
  have hnew : (s.addInode ⟨.ofBytes [], m, g⟩).1.inode s.inodes.size = ⟨.ofBytes [], m, g⟩ := by
    simp [inode_addInode]
  have hcredentials :
      (s.addInode ⟨.ofBytes [], m, g⟩).1.credentials pid = s.credentials pid := rfl
  refine files_ext (by simp [addInode]) fun j => ?_
  rw [inode_emptied, modeAfterWrite, group, hnew, hcredentials, inode_addInode, inode_addInode]
  by_cases hj : j = s.inodes.size
  · simp [hj, addInode]
    rfl
  · simp [hj, Ne.symm hj]

end Adding

section Processes

variable {pid : Pid}

theorem closeHandles_eq (s : State) (pid : Pid) (gone : Fd × Handle → Bool) :
    ∃ inodes, s.closeHandles pid gone =
      { s.modifyProcess pid fun p => { p with handles := p.handles.filter fun h => !gone h } with
        inodes } := by
  have hone (u : State) (i : InodeId) : ∃ inodes, u.settleFifo i = { u with inodes } := by
    unfold settleFifo
    split
    · split
      · exact ⟨u.inodes, rfl⟩
      · exact ⟨_, rfl⟩
    · exact ⟨u.inodes, rfl⟩
  have hall (l : List InodeId) (u : State) :
      ∃ inodes, l.foldl settleFifo u = { u with inodes } := by
    induction l generalizing u with
    | nil => exact ⟨u.inodes, rfl⟩
    | cons i l ih =>
      obtain ⟨_, hi⟩ := hone u i
      obtain ⟨inodes, hl⟩ := ih (u.settleFifo i)
      exact ⟨inodes, by rw [List.foldl_cons, hl, hi]⟩
  exact hall _ _

theorem process?_modifyProcess (s : State) (pid q : Pid) {f : Process → Process}
    (hf : ∀ p, (f p).pid = p.pid) : (s.modifyProcess pid f).process? q =
      (s.process? q).map fun p => if p.pid = pid then f p else p := by
  unfold process? modifyProcess
  rw [List.find?_map]
  congr 2
  funext p
  by_cases hp : p.pid = pid <;> simp [hp, hf]

theorem pid_of_process? {q : Process} (h : s.process? pid = some q) : q.pid = pid := by
  simpa using List.find?_some h

structure SameProcesses (s t : State) : Prop where
  nextPid : t.nextPid = s.nextPid
  pids : t.processes.map Process.pid = s.processes.map Process.pid
  directory : ∀ pid,
    (t.process? pid).map Process.directory = (s.process? pid).map Process.directory
  credentials : ∀ pid, t.credentials pid = s.credentials pid

namespace SameProcesses

theorem refl (s : State) : s.SameProcesses s := ⟨rfl, rfl, fun _ => rfl, fun _ => rfl⟩

theorem symm (h : s.SameProcesses t) : t.SameProcesses s :=
  ⟨h.nextPid.symm, h.pids.symm, fun pid => (h.directory pid).symm,
    fun pid => (h.credentials pid).symm⟩

theorem trans {u : State} (h : s.SameProcesses t) (h' : t.SameProcesses u) :
    s.SameProcesses u :=
  ⟨h'.nextPid.trans h.nextPid, h'.pids.trans h.pids,
    fun pid => (h'.directory pid).trans (h.directory pid),
    fun pid => (h'.credentials pid).trans (h.credentials pid)⟩

theorem isSome (h : s.SameProcesses t) (pid : Pid) :
    (t.process? pid).isSome = (s.process? pid).isSome := by
  simpa using congrArg Option.isSome (h.directory pid)

theorem modifyProcess (s : State) (pid : Pid) {f : Process → Process}
    (hpid : ∀ p, (f p).pid = p.pid) (hdirectory : ∀ p, (f p).directory = p.directory)
    (hcredentials : ∀ p, (f p).credentials = p.credentials) :
    s.SameProcesses (s.modifyProcess pid f) where
  nextPid := rfl
  pids := by
    simp only [State.modifyProcess, List.map_map]
    refine List.map_congr_left fun p _ => ?_
    by_cases hp : p.pid = pid <;> simp [hp, hpid]
  directory q := by
    rw [process?_modifyProcess _ _ _ hpid, Option.map_map]
    congr 1
    funext p
    by_cases hp : p.pid = pid <;> simp [hp, hdirectory]
  credentials q := by
    unfold State.credentials
    rw [process?_modifyProcess _ _ _ hpid, Option.map_map]
    congr 2
    funext p
    by_cases hp : p.pid = pid <;> simp [hp, hcredentials]

theorem addNamed {directory parent : InodeId} {entries : List (Bytes × InodeId)}
    (h : s.content directory = .directory parent entries) (name : Bytes) (n : Inode) :
    s.SameProcesses (s.addNamed directory name n).1 := by
  rw [addNamed_eq h]
  exact ⟨rfl, rfl, fun _ => rfl, fun _ => rfl⟩

theorem closeHandles (s : State) (pid : Pid) (gone : Fd × Handle → Bool) :
    s.SameProcesses (s.closeHandles pid gone) := by
  obtain ⟨inodes, h⟩ := s.closeHandles_eq pid gone
  have hmodified : s.SameProcesses (s.modifyProcess pid fun p =>
      { p with handles := p.handles.filter fun h => !gone h }) :=
    modifyProcess s pid (fun _ => rfl) (fun _ => rfl) fun _ => rfl
  rw [h]
  exact ⟨hmodified.nextPid, hmodified.pids, hmodified.directory, hmodified.credentials⟩

theorem putHandle (s : State) (pid : Pid) (fd : Fd) (h : Handle) :
    s.SameProcesses (s.putHandle pid fd h) :=
  (closeHandles s pid _).trans (modifyProcess _ pid (fun _ => rfl) (fun _ => rfl) fun _ => rfl)

theorem groupIn (h : s.SameProcesses t) (hfiles : t.files = s.files) (pid : Pid)
    (directory : InodeId) : t.groupIn pid directory = s.groupIn pid directory := by
  have hmode : (t.inode directory).mode = (s.inode directory).mode := mode_of_files hfiles directory
  have hgroup : (t.inode directory).group = (s.inode directory).group :=
    group_of_files hfiles directory
  simp only [State.groupIn, hmode, hgroup, h.credentials]

theorem granted (h : s.SameProcesses t) (hfiles : t.files = s.files) (pid : Pid) (i : InodeId)
    (m : Mode) : t.granted pid i m = s.granted pid i m := by
  have hgroup : (t.inode i).group = (s.inode i).group := group_of_files hfiles i
  simp only [State.granted, hgroup, h.credentials]

end SameProcesses

@[simp] theorem openFiles_putHandle (s : State) (pid : Pid) (fd : Fd) (h : Handle) :
    (s.putHandle pid fd h).openFiles = s.openFiles := by
  obtain ⟨inodes, hclose⟩ := s.closeHandles_eq pid fun e => e.1 = fd
  unfold putHandle
  rw [hclose]
  rfl

theorem process?_modifyHandles {p : Process} (h : s.process? pid = some p)
    (f : List (Fd × Handle) → List (Fd × Handle)) :
    (s.modifyProcess pid fun p => { p with handles := f p.handles }).process? pid =
      some { p with handles := f p.handles } := by
  refine (process?_modifyProcess s pid pid (f := fun p => { p with handles := f p.handles })
    fun _ => rfl).trans ?_
  simp [h, pid_of_process? h]

theorem handle?_putHandle (h : (s.process? pid).isSome) (fd : Fd) (new : Handle) :
    (s.putHandle pid fd new).handle? pid fd = some new := by
  obtain ⟨p, hp⟩ := Option.isSome_iff_exists.mp h
  obtain ⟨inodes, hclose⟩ := s.closeHandles_eq pid fun e => e.1 = fd
  have hclosed : (s.closeHandles pid fun e => e.1 = fd).process? pid =
      some { p with handles := p.handles.filter fun h => !decide (h.1 = fd) } := by
    rw [hclose]
    exact process?_modifyHandles hp fun l => l.filter fun h => !decide (h.1 = fd)
  have hput := process?_modifyHandles hclosed fun l => (fd, new) :: l
  simp [handle?, handles, putHandle, hput]

def fileOf? (s : State) (pid : Pid) (fd : Fd) : Option OpenFile :=
  (s.handle? pid fd).map fun h => s.openFiles.getD h.openFile default

def installed (s : State) (pid : Pid) (fd : Fd) (f : OpenFile) (closeOnExec : Bool) : State :=
  (s.addOpenFile f).1.putHandle pid fd ⟨s.openFiles.size, closeOnExec⟩

theorem files_installed (s : State) (pid : Pid) (fd : Fd) (f : OpenFile) (closeOnExec : Bool) :
    (s.installed pid fd f closeOnExec).files = s.files :=
  (s.addOpenFile f).1.files_putHandle pid fd _

theorem SameProcesses.installed (s : State) (pid : Pid) (fd : Fd) (f : OpenFile)
    (closeOnExec : Bool) : s.SameProcesses (s.installed pid fd f closeOnExec) :=
  have hadded : s.SameProcesses (s.addOpenFile f).1 := ⟨rfl, rfl, fun _ => rfl, fun _ => rfl⟩
  hadded.trans (.putHandle _ pid fd _)

theorem fileOf?_installed (h : (s.process? pid).isSome) (fd : Fd) (f : OpenFile)
    (closeOnExec : Bool) : (s.installed pid fd f closeOnExec).fileOf? pid fd = some f := by
  have hprocess : ((s.addOpenFile f).1.process? pid).isSome := h
  unfold fileOf? installed
  rw [handle?_putHandle hprocess, openFiles_putHandle]
  simp [addOpenFile]

end Processes

end State

end OwnedHandles.Kernel
