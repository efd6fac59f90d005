import OwnedHandles.Proofs.MapAttempts

namespace OwnedHandles

def zeros (n : Nat) : Bytes := List.replicate n 0

@[simp] theorem length_zeros (n : Nat) : (zeros n).length = n := List.length_replicate

theorem zeros_append (m n : Nat) : zeros m ++ zeros n = zeros (m + n) :=
  List.replicate_append_replicate

theorem getElem?_zeros {n k : Nat} (hk : k < n) : (zeros n)[k]? = some 0 := by
  simp [zeros, hk]

namespace Storage

variable {rules : Rules} {s t : Storage} {place i offset : Nat} {flags : OpenFlags} {fd : Fd}

def overwriting (s : Storage) (rules : Rules) (i : Nat) (data : Bytes) : Storage :=
  { s with
    content := Function.update s.content i (overwritten (s.content i) data)
    mode := Function.update s.mode i
      (if data.isEmpty then s.mode i else rules.afterWrite i (s.mode i)) }

theorem opening_writing_closing (hfd : s.openFiles fd = none) (happend : flags.has .append = false)
    (data : Bytes) : ((s.opening fd flags i).writing rules fd data).closing fd =
      s.overwriting rules i data := by
  cases data with
  | nil => simp [opening, closing, overwriting, overwritten_nil, ← hfd]
  | cons b data =>
    have hopen : (s.opening fd flags i).openFiles fd = some { inode := i, flags } := by
      simp [opening]
    rw [writing_eq hopen (by simp)]
    simp [opening, closing, written, writeOffset, overwriting, happend, writtenAt_zero, ← hfd]

theorem mappingAt?_mapping {range : AddressRange} {k : Nat} (hk : k < range.length) :
    (s.mapping range i offset).mappingAt? (range.start + k) =
      some ⟨range.start, range.length, i, offset⟩ := by
  simp [mappingAt?, mapping, hk]

structure Zeroed (rules : Rules) (s t : Storage) (place extent : Nat) (perm : Mode) (i : Nat) :
    Prop where
  existed : s.inode place = some i ∨ s.inode place = none ∧ s.Unused i
  inode : t.inode = Function.update s.inode place (some i)
  content : t.content = Function.update s.content i (overwritten (s.contentAt place) (zeros extent))
  mode : t.mode = Function.update s.mode i
    (let given := if (s.inode place).isSome then s.mode i else rules.granted perm i
      if extent = 0 then given else rules.afterWrite i given)
  openFiles : t.openFiles = s.openFiles
  mappings : t.mappings = s.mappings

/-- The range stands for bytes of the file from the offset on, all of them zero. -/
structure ShowsZeros (s : Storage) (range : AddressRange) (i offset : Nat) : Prop where
  within : offset + range.length ≤ (s.content i).length
  load : ∀ k < range.length, s.load? (range.start + k) = some 0
  store : ∀ k < range.length, ∀ byte, s.store (range.start + k) byte =
    { s with content := Function.update s.content i ((s.content i).set (offset + k) byte) }

theorem shows_zeros {range : AddressRange} (old : Bytes)
    (hcontent : s.content i = overwritten old (zeros (offset + range.length))) :
    (s.mapping range i offset).ShowsZeros range i offset where
  within := by
    change _ ≤ (s.content i).length
    simp [hcontent, overwritten]
  load k hk := by
    have hzero : (overwritten old (zeros (offset + range.length)))[offset + k]? = some 0 := by
      rw [overwritten, List.getElem?_append_left (by simpa using hk)]
      exact getElem?_zeros (Nat.add_lt_add_left hk offset)
    rw [load?, mappingAt?_mapping hk]
    simpa [mapping, hcontent] using hzero
  store k hk byte := by
    rw [store, mappingAt?_mapping hk]
    simp

theorem Opens.zeroed {extent : Nat} {perm : Mode} (hfd : s.openFiles fd = none)
    (hopens : s.Opens rules place (.forAccess false true) (rules.granted perm) fd t) :
    ∃ i, s.Zeroed rules ((t.writing rules fd (zeros extent)).closing fd) place extent
      perm i := by
  cases hopens with
  | @existing i hi =>
    rw [if_neg (by simp), opening_writing_closing hfd rfl]
    refine ⟨i, .inl hi, ?_, ?_, ?_, rfl, rfl⟩
    · simp [overwriting, ← hi]
    · simp [overwriting, contentAt, hi]
    · simp [overwriting, hi, zeros]
  | @created i hi _ hunused =>
    rw [opening_writing_closing (s := s.making place i (rules.granted perm i)) hfd rfl]
    refine ⟨i, .inr ⟨hi, hunused⟩, rfl, ?_, ?_, rfl, rfl⟩
    · simp [overwriting, making, contentAt, hi]
    · simp [overwriting, making, hi, zeros]

end Storage

open Contract (asking)

namespace MappedFile

variable {rules : Storage.Rules} {s t : Storage}

theorem writePages_storing (rules : Storage.Rules) (s : Storage) (name : String) (fd : Fd)
    (rounds pages : Nat) :
    (World.storing rules).Meets
      (asking (fun _ _ => True) fun _ t =>
        t = s.writing rules fd (zeros (pages * Limits.pageSize)))
      (writePages (.owning fd name) rounds pages).run s := by
  induction pages generalizing s with
  | zero => exact World.alone_done fun _ _ => by simp [zeros]
  | succ pages ih =>
    refine asking.bind (Descriptor.writeAll_storing name fd rounds zeroPage) fun _ t ht => ?_
    subst ht
    refine (ih _).returning fun r u hu a ha => ?_
    rw [hu a ha, Storage.writing_append, Nat.succ_mul, Nat.add_comm, ← zeros_append]
    rfl

theorem fill_storing (m : MappedFile) (name : String) (fd : Fd) (rounds : Nat)
    (hextent : (m.size + m.offset) % Limits.pageSize = 0) :
    (World.storing rules).Meets
      (asking (fun _ _ => True) fun _ t =>
        t = s.writing rules fd (zeros (m.size + m.offset)))
      (m.fill (.owning fd name) rounds).run s := by
  unfold fill
  split
  · exact fun _ _ => trivial
  · have hpages : (m.size + m.offset) / Limits.pageSize * Limits.pageSize = m.size + m.offset :=
      Nat.div_mul_cancel (Nat.dvd_of_mod_eq_zero hextent)
    have h := writePages_storing rules s name fd rounds
      ((m.size + m.offset) / Limits.pageSize)
    rwa [hpages] at h

theorem zero_storing (m : MappedFile) (rounds : Nat)
    (hextent : (m.size + m.offset) % Limits.pageSize = 0) :
    (World.storing rules).Meets
      (asking (fun _ _ => True) fun _ t => ∃ i, s.Zeroed rules t (rules.locate m.file.path)
        (m.size + m.offset) m.permissions i)
      (m.zero rounds).run s := by
  unfold zero
  cases m.writable with
  | false => exact fun _ _ => trivial
  | true =>
    refine asking.bind (P := fun d t => ∃ fd, s.openFiles fd = none ∧ d = .owning fd m.file.name ∧
      s.Opens rules (rules.locate m.file.path) (.forAccess false true)
        (rules.granted m.permissions) fd t)
      (Descriptor.openFile_storing m.file (.forAccess false true) m.permissions trivial
        (fun _ _ _ => trivial) ?_) ?_
    · rintro _ t ht d rfl
      exact ht
    rintro _ t ⟨fd, hfd, rfl, hopens⟩
    refine asking.bind (asking.onLeave (fill_storing m m.file.name fd rounds hextent)
      (Descriptor.dropAll_makes (P := fun _ => True) (fun _ => trivial) _) (fun _ _ _ => trivial)
      ?_) ?_
    · rintro _ u v rfl hv
      exact (World.others_alone _).mp hv
    · rintro _ u rfl
      refine World.alone_call trivial fun a v hv => ?_
      obtain rfl := hv
      cases a with
      | ok _ => exact World.alone_done fun _ _ => hopens.zeroed hfd
      | error e => exact asking.failed _

theorem map_shows {m m' : MappedFile} {u : Storage} {i : Nat} {old : Bytes}
    (hmap : (World.storing rules).Returns m.map t (.ok (), m') u)
    (hi : t.inode (rules.locate m.file.path) = some i)
    (hcontent : t.content i = overwritten old (zeros (m.offset + m.size))) :
    ∃ start, m'.slice? = (if m.readable then some ⟨start, m.size⟩ else none) ∧
      m'.mutableSlice? = (if m.writable then some ⟨start, m.size⟩ else none) ∧
      u.content = t.content ∧ u.ShowsZeros ⟨start, m.size⟩ i m.offset := by
  cases Attempt.of_returns hmap with
  | @mapped fd f start v w hfd hopens hw _ hf _ _ =>
    subst hw
    obtain rfl := hopens.eq_opening hi (by simp [flags])
    obtain rfl : { inode := i, flags := m.flags } = f := by
      simpa [Storage.opening] using Storage.freeing_openFiles hf
    refine ⟨start, ?_, ?_, by simp [Storage.mapping, Storage.opening], Storage.shows_zeros old ?_⟩
    · simp [slice?, mappedAt, backedBy]
    · simp [mutableSlice?, mappedAt, backedBy]
    · simpa [Storage.opening] using hcontent

theorem zero_shows {m : MappedFile} {rounds : Nat}
    (hextent : (m.size + m.offset) % Limits.pageSize = 0)
    (hzero : (World.storing rules).Returns (m.zero rounds).run s (.ok ()) t) :
    ∃ i, s.Zeroed rules t (rules.locate m.file.path) (m.offset + m.size) m.permissions i ∧
      m.offset + m.size ≤ (t.content i).length ∧
      ∀ m' u, (World.storing rules).Returns m.map t (.ok (), m') u →
        ∃ start, m'.slice? = (if m.readable then some ⟨start, m.size⟩ else none) ∧
          m'.mutableSlice? = (if m.writable then some ⟨start, m.size⟩ else none) ∧
          u.content = t.content ∧ u.ShowsZeros ⟨start, m.size⟩ i m.offset := by
  obtain ⟨i, hzeroed⟩ := (zero_storing m rounds hextent).returns hzero () rfl
  rw [Nat.add_comm] at hzeroed
  have hcontent : t.content i =
      overwritten (s.contentAt (rules.locate m.file.path)) (zeros (m.offset + m.size)) := by
    simp [hzeroed.content]
  refine ⟨i, hzeroed, by simp [hcontent, overwritten], fun m' u hmap => ?_⟩
  exact map_shows hmap (by simp [hzeroed.inode]) hcontent

def page (permissions : Mode) : MappedFile where
  file := ⟨[102]⟩
  size := 4096
  offset := 0
  readable := true
  writable := true
  permissions

theorem exists_zeroing_run (perm : Mode) (group : Kernel.GroupId) :
    ∃ t, (World.storing { Storage.Rules.lax with group := fun _ => group }).Returns
      ((page perm).zero 1).run .empty (.ok ()) t := by
  let rules : Storage.Rules := { Storage.Rules.lax with group := fun _ => group }
  let d : Descriptor := .owning 3 (page perm).file.name
  let opened (mode : Mode) : Storage :=
    (Storage.empty.making 0 0 mode).opening 3 (.forAccess false true) 0
  let given : Mode := rules.granted perm 0
  let written : Storage := (opened given).writing rules 3 zeroPage
  have hmade : Storage.empty.Opens rules 0 (.forAccess false true) (rules.initial perm) 3
      (opened (rules.initial perm 0)) := .created rfl rfl ⟨nofun, nofun, nofun⟩
  have hset : opened given = (opened (rules.initial perm 0)).changeMode 0 given :=
    (Storage.making_changeMode .empty 0 0 _ given 3 _).symm
  have hopened : (World.storing rules).Returns
      (Descriptor.openFile (page perm).file (.forAccess false true) perm).run .empty (.ok d)
      (opened given) := by
    refine World.Reaches.call none ⟨rfl, rfl⟩ (World.Reaches.call (.ok 3) ⟨rfl, hmade⟩ ?_)
    exact .head .note (World.Reaches.call (.ok ()) ⟨_, rfl, hset⟩ (.head .note .refl))
  have hfilled : (World.storing rules).Returns ((page perm).fill d 1).run (opened given) (.ok ())
      written := by
    have hword : ¬wordLimit ≤ 4096 + 0 := by decide
    have hpages : (page perm).fill d 1 = writePages d 1 ((4096 + 0) / 4096) := if_neg hword
    rw [hpages]
    exact (Descriptor.writeAll_whole d.name 0 0 (List.replicate 4095 0) rfl rfl).andThen .refl
  have hfinished : (World.storing rules).Returns d.finish.run written (.ok ())
      (written.closing 3) := World.Reaches.call (.ok ()) rfl (.head .note .refl)
  exact ⟨_, hopened.andThen (hfilled.onLeave.andThen hfinished)⟩

/-- A file that was zeroed has zeros up to the end of the range, and behind them what was there. -/
theorem zero_covers_range {file : File} {size offset : Nat} {readable writable : Bool}
    {permissions : Mode} {m : MappedFile}
    (hnew : describe file size offset readable writable permissions = .ok m) (p : Phase)
    {rounds : Nat}
    (hzero : (World.storing rules).Returns ((p.file m).zero rounds).run s (.ok ()) t) :
    ∃ i, s.Zeroed rules t (rules.locate file.path) (offset + size) permissions i ∧
      offset + size ≤ (t.content i).length ∧
      ∀ m' u, (World.storing rules).Returns (p.file m).map t (.ok (), m') u →
        ∃ start, m'.slice? = (if readable then some ⟨start, size⟩ else none) ∧
          m'.mutableSlice? = (if writable then some ⟨start, size⟩ else none) ∧
          u.content = t.content ∧ u.ShowsZeros ⟨start, size⟩ i offset := by
  obtain ⟨-, hsize, hoffset, rfl⟩ := describe_ok_iff.mp hnew
  have hextent : (size + offset) % Limits.pageSize = 0 := by
    simp [Nat.add_mod, hsize, hoffset]
  cases p <;> exact zero_shows hextent hzero

/-- A page for a missing file, which is then mapped. -/
theorem zero_covers_range_of_page : ∃ t u m' i,
    describe ⟨[102]⟩ 4096 0 true true 0o600 = .ok (page 0o600) ∧
      (World.storing .lax).Returns ((page 0o600).zero 1).run .empty (.ok ()) t ∧
      t.content i = zeros 4096 ∧ t.mode i = 0o600 ∧
      (World.storing .lax).Returns (page 0o600).map t (.ok (), m') u ∧
      m'.mutableSlice? = some ⟨8192, 4096⟩ ∧ u.load? 8192 = some 0 := by
  obtain ⟨t, hzero⟩ := exists_zeroing_run 0o600 0
  have hnew : describe ⟨[102]⟩ 4096 0 true true 0o600 = .ok (page 0o600) := by decide +kernel
  obtain ⟨i, hzeroed, -, hshows⟩ := zero_covers_range hnew .idle hzero
  have hi : t.inode 0 = some i := by simp [hzeroed.inode, Storage.Rules.lax]
  let opened : Storage := t.opening 3 (.forAccess true true) i
  have hallows : (World.storing .lax).Allows t [⟨.probe [102], some .regular⟩,
      ⟨.openFile [102] (.forAccess true true) 0o600, .ok 3⟩,
      ⟨.mapMemory 4096 true true 3 0, .ok 8192⟩] (opened.mapping ⟨8192, 4096⟩ i 0) := by
    have hfree : t.openFiles 3 = none := by rw [hzeroed.openFiles]; rfl
    have hnothing : opened.mappings = [] := hzeroed.mappings
    have hopens : t.Opens .lax 0 (.forAccess true true) (Storage.Rules.lax.initial 0o600) 3
        opened := .existing hi rfl
    have hknown : some .regular = (t.inode 0).map fun _ => FileKind.regular := by rw [hi]; rfl
    have hheld : opened.openFiles 3 = some { inode := i, flags := .forAccess true true } := by
      simp [opened, Storage.opening]
    have hrange : opened.Free ⟨8192, 4096⟩ := by simp [Storage.Free, hnothing]
    exact .answer ⟨hknown, rfl⟩ (.answer ⟨hfree, hopens⟩
      (.answer ⟨_, hheld, OpenFlags.forAccess_canBeMapped rfl, hrange, rfl⟩ (.nil _)))
  have hmap := hallows.returns (p := (page 0o600).map)
    (a := (.ok (), ((page 0o600).backedBy 3).mappedAt 8192)) (by decide +kernel)
  obtain ⟨start, -, hslice, -, hloads⟩ := hshows _ _ hmap
  obtain rfl : 8192 = start := by simpa [mutableSlice?, mappedAt, backedBy, page] using hslice
  refine ⟨t, _, _, i, hnew, hzero, ?_, ?_, hmap, hslice, hloads.load 0 (by decide)⟩
  · simp [hzeroed.content, Storage.contentAt, Storage.empty, overwritten]
  · have hwritten : t.mode i =
        Kernel.Credentials.afterWrite {} 0 (Kernel.Credentials.granted {} 0 0o600) := by
      simp [hzeroed.mode, Storage.empty, Storage.Rules.afterWrite, Storage.Rules.granted,
        Storage.Rules.lax]
    exact hwritten.trans (by decide)

/-- What is made with a set-id bit does not keep it: a write takes it away, and in a group of others
the process can not give it. -/
theorem zero_takes_set_id : (∃ t i,
    describe ⟨[102]⟩ 4096 0 true true 0o2755 = .ok (page 0o2755) ∧ Storage.empty.inode 0 = none ∧
      (World.storing .lax).Returns ((page 0o2755).zero 1).run .empty (.ok ()) t ∧
      t.inode 0 = some i ∧ t.mode i = 0o0755 ∧ t.mode i ≠ (page 0o2755).permissions) ∧
    ∃ t i, describe ⟨[102]⟩ 4096 0 true true 0o2640 = .ok (page 0o2640) ∧
      (World.storing { Storage.Rules.lax with group := fun _ => 50 }).Returns
        ((page 0o2640).zero 1).run .empty (.ok ()) t ∧
      t.inode 0 = some i ∧ t.mode i = 0o0640 := by
  have hmade (perm : Mode) (group : Kernel.GroupId) : ∃ t i,
      (World.storing { Storage.Rules.lax with group := fun _ => group }).Returns
        ((page perm).zero 1).run .empty (.ok ()) t ∧ t.inode 0 = some i ∧
      t.mode i =
        Kernel.Credentials.afterWrite {} group (Kernel.Credentials.granted {} group perm) := by
    obtain ⟨t, hzero⟩ := exists_zeroing_run perm group
    obtain ⟨i, hzeroed, -⟩ := zero_shows (by simp only [page]; decide) hzero
    refine ⟨t, i, hzero, by simp [hzeroed.inode, Storage.Rules.lax], ?_⟩
    simp [hzeroed.mode, Storage.empty, page, Storage.Rules.afterWrite, Storage.Rules.granted,
      Storage.Rules.lax]
  obtain ⟨t, i, hzero, hi, hmode⟩ := hmade 0o2755 0
  obtain ⟨u, j, hzero', hj, hmode'⟩ := hmade 0o2640 50
  have hlost : t.mode i = 0o0755 := hmode.trans (by decide)
  exact ⟨⟨t, i, by decide +kernel, rfl, hzero, hi, hlost, by rw [hlost]; decide⟩,
    u, j, by decide +kernel, hzero', hj, hmode'.trans (by decide)⟩

end MappedFile

end OwnedHandles
