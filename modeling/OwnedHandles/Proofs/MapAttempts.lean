import OwnedHandles.Proofs.Mappings
import OwnedHandles.Proofs.Storage

namespace OwnedHandles

namespace MappedFile

def flags (m : MappedFile) : OpenFlags := .forAccess m.readable m.writable

def held (m : MappedFile) : Option Fd := m.descriptor.bind Descriptor.fd

def backedBy (m : MappedFile) (fd : Fd) : MappedFile :=
  { m with descriptor := some (.owning fd m.file.name) }

def mappedAt (m : MappedFile) (start : Address) : MappedFile :=
  { m with address := some start, mapped := true }

/-- What an attempt may leave: no new number, the number without a mapping, or both. -/
inductive Attempt (rules : Storage.Rules) (m : MappedFile) (s : Storage) :
    Except Failure Unit × MappedFile → Storage → Prop
  | unopened {f : Failure} {t : Storage} :
      s.Attempted rules m.file m.flags m.permissions (.error f) t →
      Attempt rules m s (.error f, m) t
  | unmapped {fd : Fd} {e : Errno} {t u : Storage} : s.openFiles fd = none →
      s.Opens rules (rules.locate m.file.path) m.flags (rules.granted m.permissions) fd t →
      u = t.freeing m.held →
      (if m.size = 0 then e = .EINVAL
        else rules.refuses u (.mapMemory m.size m.readable m.writable fd m.offset) e) →
      Attempt rules m s (.error (.callFailed "mmap" m.context e), m.backedBy fd) u
  | mapped {fd : Fd} {f : Kernel.OpenFile} {start : Address} {t u : Storage} :
      s.openFiles fd = none →
      s.Opens rules (rules.locate m.file.path) m.flags (rules.granted m.permissions) fd t →
      u = t.freeing m.held →
      m.size ≠ 0 → u.openFiles fd = some f → f.flags.canBeMapped m.writable = true →
      u.Free ⟨start, m.size⟩ →
      Attempt rules m s (.ok (), (m.backedBy fd).mappedAt start)
        (u.mapping ⟨start, m.size⟩ f.inode m.offset)

section Steps

variable {rules : Storage.Rules} {s t : Storage} {m : MappedFile}
  {q : Contract Storage (Except Failure Unit × MappedFile)}

theorem mapMemory_storing {fd : Fd} (hm : m.mapped = false)
    (hcall : m.size ≠ 0 → q.calls s (.mapMemory m.size m.readable m.writable fd m.offset))
    (hrefused : ∀ e, (if m.size = 0 then e = .EINVAL
      else rules.refuses s (.mapMemory m.size m.readable m.writable fd m.offset) e) →
      q.returns (.error (.callFailed "mmap" m.context e), m.backedBy fd) s)
    (hmapped : ∀ f start, m.size ≠ 0 → s.openFiles fd = some f →
      f.flags.canBeMapped m.writable = true → s.Free ⟨start, m.size⟩ →
      q.returns (.ok (), (m.backedBy fd).mappedAt start)
        (s.mapping ⟨start, m.size⟩ f.inode m.offset)) :
    (World.storing rules).Meets q (m.backedBy fd).mapMemory s := by
  change (World.storing rules).Meets q (if m.size = 0 then _ else _) s
  split
  · rename_i hsize
    exact World.alone_done (hrefused .EINVAL (by simp [hsize]))
  · rename_i hsize
    refine World.alone_call (hcall hsize) fun a t ht => ?_
    cases a with
    | ok start =>
      obtain ⟨f, hf, hflags, hfree, rfl⟩ := ht
      exact World.alone_done (hmapped f start hsize hf hflags hfree)
    | error e =>
      obtain ⟨he, rfl⟩ := ht
      have hsame : { m.backedBy fd with mapped := false } = m.backedBy fd := by
        rw [← hm]
        rfl
      exact World.alone_done (hsame ▸ hrefused e ((if_neg hsize).mpr he))

theorem map_storing (hm : m.mapped = false)
    (hopen : q.calls s (.openFile m.file.path m.flags m.permissions))
    (hcalls : ∀ u c, c.IsAnswered u → q.calls u c)
    (hmap : ∀ fd t,
      s.Opens rules (rules.locate m.file.path) m.flags (rules.granted m.permissions) fd t → m.size ≠ 0 →
      q.calls (t.freeing m.held) (.mapMemory m.size m.readable m.writable fd m.offset))
    (hreturns : ∀ r t, m.Attempt rules s r t → q.returns r t) :
    (World.storing rules).Meets q m.map s := by
  unfold map
  simp only [hm]
  have hrest (fd : Fd) (t : Storage) (hfd : s.openFiles fd = none)
      (hopens :
        s.Opens rules (rules.locate m.file.path) m.flags (rules.granted m.permissions) fd t) :
      (World.storing rules).Meets q (m.backedBy fd).mapMemory (t.freeing m.held) :=
    mapMemory_storing hm (hmap fd t hopens)
      (fun e he => hreturns _ _ (.unmapped hfd hopens rfl he))
      fun f start hsize hf hflags hfree =>
        hreturns _ _ (.mapped hfd hopens rfl hsize hf hflags hfree)
  refine (World.meets_bind _ m.openBacking _).mpr ((World.meets_bind _ _ _).mpr
    (Descriptor.openFile_storing m.file m.flags m.permissions hopen hcalls fun r t ht => ?_))
  cases r with
  | error f => exact World.alone_done (World.alone_done (hreturns _ _ (.unopened ht)))
  | ok d =>
    obtain ⟨fd, hfd, rfl, hopens⟩ := ht
    refine (World.meets_bind _ (Descriptor.dropAll m.descriptor.toList) _).mpr
      (Descriptor.dropAll_storing m.descriptor hcalls ?_)
    exact World.alone_done (hrest fd t hfd hopens)

theorem settles_storing (rules : Storage.Rules) (s : Storage) {o : Operation}
    (ho : o.settles = true) (haddress : m.address = none)
    (hdescriptor : m.descriptor = none) (fd : Fd) :
    (World.storing rules).Attains ((m.backedBy fd).perform o) s fun r t =>
      r.2 = m ∧ t = s.closing fd := by
  obtain ⟨file, size, offset, readable, writable, permissions, address, descriptor, mapped⟩ := m
  obtain rfl : address = none := haddress
  obtain rfl : descriptor = none := hdescriptor
  apply World.storing_attains
  cases o with
  | map | zero => cases ho
  | unmap | release | onDrop =>
    refine World.alone_call (Call.IsAnswered.canGoOn trivial) fun a t ht => ?_
    obtain rfl := ht
    cases a <;> exact World.alone_done ⟨rfl, rfl⟩

end Steps

section Failures

variable {rules : Storage.Rules} {s t : Storage} {m m' : MappedFile} {f : Failure}

theorem Attempt.of_returns {r : Except Failure Unit × MappedFile}
    (h : (World.storing rules).Returns m.map s r t) : m.Attempt rules s r t := by
  suffices (World.storing rules).Meets (.result (m.Attempt rules s)) m.map s from this.returns h
  cases hm : m.mapped with
  | true =>
    rw [map_mapped hm]
    exact fun _ _ => trivial
  | false =>
    exact map_storing hm trivial (fun _ _ _ => trivial) (fun _ _ _ _ => trivial) fun _ _ h => h

/-- A failed map of an idle file leaves it idle, unless it got as far as the mapping itself: then
the file stays open under one number more, until it is let go of. -/
theorem failed_map_holds_number (haddress : m.address = none) (hdescriptor : m.descriptor = none)
    (hmapped : m.mapped = false)
    (hfails : (World.storing rules).Returns m.map s (.error f, m') t) :
    (m'.mapped = false ∧ m'.address = none ∧ m'.slice? = none ∧ m'.mutableSlice? = none ∧
      t.mappings = s.mappings) ∧
    ((f.OfOpening m.file.name ∧ m' = m ∧ t.openFiles = s.openFiles) ∨
      ∃ e fd file, f = .callFailed "mmap" m.context e ∧ (m.size = 0 → e = .EINVAL) ∧
        s.openFiles fd = none ∧ t.openFiles = Function.update s.openFiles fd (some file) ∧
        m' = m.backedBy fd ∧ m'.isActive = true ∧
        ∀ o : Operation, o.settles = true → (World.storing rules).Attains (m'.perform o) t
          fun r u => r.2 = m ∧ u.openFiles = s.openFiles ∧ u.mappings = s.mappings) := by
  have hheld : m.held = none := by simp [held, hdescriptor]
  have hslices (fd : Fd) :
      (m.backedBy fd).slice? = none ∧ (m.backedBy fd).mutableSlice? = none := by
    simp [slice?, mutableSlice?, backedBy, hmapped]
  cases Attempt.of_returns hfails with
  | unopened h =>
    have hkept : f.OfOpening m.file.name ∧ t.openFiles = s.openFiles ∧ t.mappings = s.mappings := by
      obtain ⟨e, rfl, -, rfl⟩ | ⟨e, i, rfl, -, -, rfl⟩ := h
      · exact ⟨⟨e, .inl rfl⟩, rfl, rfl⟩
      · exact ⟨⟨e, .inr rfl⟩, rfl, rfl⟩
    obtain ⟨hf, hopenFiles, hmappings⟩ := hkept
    exact ⟨⟨hmapped, haddress, by simp [slice?, hmapped], by simp [mutableSlice?, hmapped],
      hmappings⟩, .inl ⟨hf, rfl, hopenFiles⟩⟩
  | @unmapped fd e t _ hfd hopens heq he =>
    rw [hheld] at heq
    subst heq
    obtain ⟨i, -, hopenFiles⟩ := hopens.file
    refine ⟨⟨hmapped, haddress, (hslices fd).1, (hslices fd).2, hopens.mappings⟩,
      .inr ⟨e, fd, _, rfl, fun hsize => by rwa [if_pos hsize] at he, hfd, hopenFiles, rfl, ?_, ?_⟩⟩
    · simp [isActive, backedBy]
    · intro o ho
      have hsettles := settles_storing rules t ho haddress hdescriptor fd
      refine { hsettles with only := fun r u hu => ?_ }
      obtain ⟨hr, rfl⟩ := hsettles.only r u hu
      exact ⟨hr, by simp [Storage.closing, hopenFiles, ← hfd], hopens.mappings⟩

/-- The system has no memory for the mapping. -/
theorem failed_map_holds_number_without_memory : ∃ s t m f,
    let idle : MappedFile := { file := ⟨[102]⟩, size := 4096, offset := 0, readable := true
                               writable := false, permissions := 0 }
    (World.storing .lax).Returns idle.map s
        (.error (.callFailed "mmap" "on file f" .ENOMEM), m) t ∧
      m = idle.backedBy 3 ∧ t.openFiles = Function.update s.openFiles 3 (some f) ∧
      (World.storing .lax).Attains m.unmap t fun r u => r.2 = idle ∧ u.openFiles = s.openFiles := by
  let idle : MappedFile := { file := ⟨[102]⟩, size := 4096, offset := 0, readable := true
                             writable := false, permissions := 0 }
  let s : Storage := { Storage.empty with inode := some }
  have hruns : (World.storing .lax).Allows s [⟨.probe [102], some .regular⟩,
      ⟨.openFile [102] 0 0, .ok 3⟩, ⟨.mapMemory 4096 true false 3 0, .error .ENOMEM⟩]
      (s.opening 3 0 0) :=
    .answer ⟨rfl, rfl⟩ (.answer ⟨rfl, .existing rfl rfl⟩ (.answer ⟨trivial, rfl⟩ (.nil _)))
  have hreturns : (World.storing .lax).Returns idle.map s
      (.error (.callFailed "mmap" "on file f" .ENOMEM), idle.backedBy 3) (s.opening 3 0 0) :=
    hruns.returns (by decide +kernel)
  obtain ⟨-, ⟨⟨e, h | h⟩, -⟩ | ⟨e, fd, f, -, -, -, hopenFiles, hm, -, hsettles⟩⟩ :=
    failed_map_holds_number rfl rfl rfl hreturns
  · cases h
  · exact absurd (Failure.callFailed.inj h).1 (by decide)
  · obtain rfl : 3 = fd := by simpa [backedBy, Descriptor.owning] using hm
    have hunmap := hsettles .unmap rfl
    exact ⟨s, _, _, f, hreturns, rfl, hopenFiles,
      { hunmap with only := fun r u hu => ⟨(hunmap.only r u hu).1, (hunmap.only r u hu).2.1⟩ }⟩

/-- A mapping of no bytes is refused when the file is open already. -/
theorem failed_map_of_nothing_holds_number : ∃ s t idle m,
    describe ⟨[102]⟩ 0 0 true false 0 = .ok idle ∧
      (World.storing .lax).Returns idle.map s
        (.error (.callFailed "mmap" "on file f" .EINVAL), m) t ∧
      m ≠ idle ∧ idle.isActive = false ∧ m.isActive = true ∧
      s.openFiles 3 = none ∧ t.openFiles 3 ≠ none := by
  let idle : MappedFile := { file := ⟨[102]⟩, size := 0, offset := 0, readable := true
                             writable := false, permissions := 0 }
  let s : Storage := { Storage.empty with inode := some }
  have hruns : (World.storing .lax).Allows s [⟨.probe [102], some .regular⟩,
      ⟨.openFile [102] 0 0, .ok 3⟩] (s.opening 3 0 0) :=
    .answer ⟨rfl, rfl⟩ (.answer ⟨rfl, .existing rfl rfl⟩ (.nil _))
  exact ⟨s, _, idle, idle.backedBy 3, by decide +kernel,
    hruns.returns (by decide +kernel), by decide, rfl, rfl, rfl, by simp [Storage.opening]⟩

end Failures

section Successes

variable {rules : Storage.Rules} {s t : Storage} {m : MappedFile}

/-- What is to be written only is opened to be written only, and such a file is never mapped. -/
theorem canBeMapped_of_opens {place : Nat} {fd : Fd} {f : Kernel.OpenFile}
    (haccess : (m.readable || m.writable) = true) (hheld : m.held = none)
    (hopens : s.Opens rules place m.flags (rules.granted m.permissions) fd t)
    (hf : (t.freeing m.held).openFiles fd = some f) :
    f.flags.canBeMapped m.writable = m.readable := by
  obtain ⟨i, -, hopenFiles⟩ := hopens.file
  obtain rfl : { inode := i, flags := m.flags } = f := by
    simpa [Storage.freeing, hheld, hopenFiles] using hf
  exact OpenFlags.forAccess_canBeMapped haccess

/-- A file that is there and can be opened can be mapped exactly if it is to be read. -/
theorem maps_iff_readable (rules : Storage.Rules) {file : File} {size offset : Nat}
    {readable writable : Bool} {permissions : Mode}
    (hnew : describe file size offset readable writable permissions = .ok m)
    (hsize : 0 < size) (hfile : (s.inode (rules.locate file.path)).isSome = true)
    (hfree : ∃ fd, s.openFiles fd = none)
    (hopens : ∀ u flags e, ¬rules.refuses u (.openFile file.path flags permissions) e)
    (hmaps : ∀ u fd e, rules.refuses u (.mapMemory size readable writable fd offset) e ↔
      e = .EACCES ∧ ∃ f, u.openFiles fd = some f ∧ f.flags.canBeMapped writable = false) :
    (World.storing rules).Attains m.map s fun r _ =>
      (readable = true → r.1 = .ok () ∧ ∃ start, r.2.slice? = some ⟨start, size⟩ ∧
        r.2.mutableSlice? = if writable then some ⟨start, size⟩ else none) ∧
      (readable = false → r.1 = .error (.callFailed "mmap" m.context .EACCES) ∧
        r.2.slice? = none ∧ r.2.mutableSlice? = none) := by
  obtain ⟨haccess, -, -, rfl⟩ := describe_ok_iff.mp hnew
  obtain ⟨i, hi⟩ := Option.isSome_iff_exists.mp hfile
  set m : MappedFile := { file, size, offset, readable, writable, permissions }
  apply World.storing_attains
  refine map_storing rfl ?_ (fun _ _ h => h.canGoOn) (fun fd t ht _ => ?_) fun r t ht => ?_
  · obtain ⟨fd, hfd⟩ := hfree
    exact .inl ⟨.ok fd, _, hfd, .existing hi (by simp [m, flags])⟩
  · obtain ⟨j, -, hopenFiles⟩ := ht.file
    have hfd : t.openFiles fd = some { inode := j, flags := m.flags } := by simp [hopenFiles]
    have hfit := canBeMapped_of_opens (m := m) haccess rfl ht hfd
    cases readable with
    | true =>
      obtain ⟨start, hstart⟩ := t.exists_free size
      exact .inl ⟨.ok start, _, _, hfd, hfit, hstart, rfl⟩
    | false => exact .inl ⟨.error .EACCES, t, (hmaps t fd _).mpr ⟨rfl, _, hfd, hfit⟩, rfl⟩
  · cases ht with
    | unopened h =>
      obtain ⟨e, -, he, -⟩ | ⟨e, j, -, hnone, -⟩ := h
      · exact absurd he (hopens _ _ _)
      · exact absurd (hi.symm.trans hnone) nofun
    | unmapped hfd hu hv he =>
      subst hv
      rw [if_neg (Nat.ne_of_gt hsize)] at he
      obtain ⟨rfl, f, hf, hfit⟩ := (hmaps _ _ _).mp he
      obtain rfl : readable = false :=
        (canBeMapped_of_opens (m := m) haccess rfl hu hf).symm.trans hfit
      exact ⟨nofun, fun _ => ⟨rfl, rfl, rfl⟩⟩
    | mapped hfd hu hv _ hf hfit =>
      subst hv
      obtain rfl : readable = true :=
        (canBeMapped_of_opens (m := m) haccess rfl hu hf).symm.trans hfit
      refine ⟨fun _ => ⟨rfl, _, rfl, ?_⟩, nofun⟩
      cases writable <;> rfl

def sharedMappings : Storage.Rules where
  locate _ := 0
  creationMask := 0
  credentials := {}
  group _ := 0
  refuses s c e := match c with
    | .mapMemory _ _ writable fd _ =>
      e = .EACCES ∧ ∃ f, s.openFiles fd = some f ∧ f.flags.canBeMapped writable = false
    | _ => False

theorem maps_iff_readable_of_both : ∃ m s,
    describe ⟨[102]⟩ 4096 0 true true 0o600 = .ok m ∧
      (World.storing sharedMappings).Attains m.map s fun r _ => r.1 = .ok () ∧
        ∃ start, r.2.slice? = some ⟨start, 4096⟩ ∧ r.2.mutableSlice? = some ⟨start, 4096⟩ := by
  let m : MappedFile := { file := ⟨[102]⟩, size := 4096, offset := 0, readable := true
                          writable := true, permissions := 0o600 }
  have hnew : describe ⟨[102]⟩ 4096 0 true true 0o600 = .ok m := by decide +kernel
  have hattains := maps_iff_readable sharedMappings
    (s := { Storage.empty with inode := some }) hnew (by decide) rfl ⟨3, rfl⟩
    (fun _ _ _ => id) fun _ _ _ => Iff.rfl
  exact ⟨m, _, hnew, { hattains with only := fun r t h => (hattains.only r t h).1 rfl }⟩

theorem write_only_never_mapped : ∃ m s,
    describe ⟨[102]⟩ 4096 0 false true 0o600 = .ok m ∧ s.inode 0 = some 0 ∧
      s.openFiles 3 = none ∧
      (∃ m' t, (World.storing sharedMappings).Returns m.map s
        (.error (.callFailed "mmap" "on file f" .EACCES), m') t) ∧
      ∀ m' t, ¬(World.storing sharedMappings).Returns m.map s (.ok (), m') t := by
  let m : MappedFile := { file := ⟨[102]⟩, size := 4096, offset := 0, readable := false
                          writable := true, permissions := 0o600 }
  let s : Storage := { Storage.empty with inode := some }
  have hruns : (World.storing sharedMappings).Allows s [⟨.probe [102], some .regular⟩,
      ⟨.openFile [102] (.forAccess false true) 0o600, .ok 3⟩,
      ⟨.mapMemory 4096 false true 3 0, .error .EACCES⟩] (s.opening 3 (.forAccess false true) 0) :=
    .answer ⟨rfl, rfl⟩ (.answer ⟨rfl, .existing rfl rfl⟩
      (.answer ⟨⟨rfl, _, rfl, rfl⟩, rfl⟩ (.nil _)))
  refine ⟨m, s, by decide +kernel, rfl, rfl,
    ⟨m.backedBy 3, _, hruns.returns (by decide +kernel)⟩, fun m' t h => ?_⟩
  cases Attempt.of_returns h with
  | mapped _ hu hv _ hf hfit =>
    subst hv
    exact absurd ((canBeMapped_of_opens (m := m) rfl rfl hu hf).symm.trans hfit) nofun

end Successes

end MappedFile

end OwnedHandles
