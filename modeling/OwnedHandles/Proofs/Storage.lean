import Mathlib.Logic.Function.Basic
import OwnedHandles.Kernel.State
import OwnedHandles.Proofs.Endings
import OwnedHandles.Proofs.Redirection

namespace OwnedHandles

theorem writtenAt_writtenAt (old : Bytes) (offset : Nat) (new next : Bytes) :
    writtenAt (writtenAt old offset new) (offset + new.length) next =
      writtenAt old offset (new ++ next) := by
  obtain ⟨front, hfront, hlength⟩ : ∃ front,
      old.take offset ++ List.replicate (offset - old.length) 0 = front ∧ front.length = offset :=
    ⟨_, rfl, by simp; omega⟩
  have hwritten : (front ++ new).length = offset + new.length := by simp [hlength]
  have hlong :
      offset + new.length - (front ++ new ++ old.drop (offset + new.length)).length = 0 := by
    rw [List.length_append, hwritten]
    omega
  have hdrop : (front ++ new).drop (offset + new.length + next.length) = [] :=
    List.drop_of_length_le (by rw [hwritten]; exact Nat.le_add_right _ _)
  simp only [writtenAt, hfront]
  rw [hlong, ← hwritten, List.take_left, List.drop_append, hwritten, hdrop]
  simp [Nat.add_assoc]

theorem writtenAt_zero (old new : Bytes) : writtenAt old 0 new = overwritten old new := by
  simp [writtenAt, overwritten]

theorem length_writtenAt_length (old new : Bytes) :
    (writtenAt old old.length new).length = old.length + new.length := by
  simp [writtenAt]

theorem Mode.afterWrite_afterWrite (m : Mode) (member : Bool) :
    (m.afterWrite member).afterWrite member = m.afterWrite member := by
  cases h : m[3] <;> cases member <;>
    simp [afterWrite, withoutSetGroup, groupExecute, h, BitVec.and_assoc]

/-- What a file that is mapped has to be open for. A shared mapping can always be read by the
system, whatever the process asks for. -/
def OpenFlags.canBeMapped (flags : OpenFlags) (writable : Bool) : Bool :=
  flags.canRead && (!writable || flags.canWrite)

namespace OpenFlags

@[simp] theorem forAccess_exclusive (read write : Bool) :
    (forAccess read write).has exclusive = false := by
  cases read <;> cases write <;> rfl

@[simp] theorem forAccess_truncate (read write : Bool) :
    (forAccess read write).has truncate = false := by
  cases read <;> cases write <;> rfl

theorem forAccess_canBeMapped {read write : Bool} (h : (read || write) = true) :
    (forAccess read write).canBeMapped write = read := by
  cases read <;> cases write <;> first | rfl | cases h

end OpenFlags

structure Storage where
  inode : Nat → Option Nat
  content : Nat → Bytes
  mode : Nat → Mode
  openFiles : Fd → Option Kernel.OpenFile
  mappings : List Kernel.Mapping

namespace Storage

/-- Where paths lead, the creation mask, what the process may do about set-id bits, the group of
each file, and the errors that a call may meet in a state. -/
structure Rules where
  locate : Bytes → Nat
  creationMask : Mode
  credentials : Kernel.Credentials
  group : Nat → Kernel.GroupId
  refuses : Storage → Call → Errno → Prop

namespace Rules

def granted (rules : Rules) (m : Mode) (i : Nat) : Mode :=
  rules.credentials.granted (rules.group i) m

def initial (rules : Rules) (m : Mode) (i : Nat) : Mode :=
  (if m.groupExecute then rules.granted m i else m).masked rules.creationMask

def afterWrite (rules : Rules) (i : Nat) (m : Mode) : Mode :=
  rules.credentials.afterWrite (rules.group i) m

theorem afterWrite_afterWrite (rules : Rules) (i : Nat) (m : Mode) :
    rules.afterWrite i (rules.afterWrite i m) = rules.afterWrite i m := by
  unfold afterWrite Kernel.Credentials.afterWrite
  split
  · rfl
  · exact Mode.afterWrite_afterWrite _ _

def lax : Rules := ⟨fun _ => 0, 0o022, {}, fun _ => 0, fun _ _ _ => True⟩

end Rules

def empty : Storage := ⟨fun _ => none, fun _ => [], fun _ => 0, fun _ => none, []⟩

def contentAt (s : Storage) (place : Nat) : Bytes :=
  match s.inode place with
  | some i => s.content i
  | none => []

def Unused (s : Storage) (i : Nat) : Prop :=
  (∀ place, s.inode place ≠ some i) ∧ (∀ fd f, s.openFiles fd = some f → f.inode ≠ i) ∧
    ∀ m ∈ s.mappings, m.inode ≠ i

def changeMode (s : Storage) (i : Nat) (mode : Mode) : Storage :=
  { s with mode := Function.update s.mode i mode }

def making (s : Storage) (place i : Nat) (mode : Mode) : Storage :=
  { s with
    inode := Function.update s.inode place (some i)
    content := Function.update s.content i []
    mode := Function.update s.mode i mode }

def emptying (s : Storage) (rules : Rules) (i : Nat) : Storage :=
  { s with
    content := Function.update s.content i []
    mode := Function.update s.mode i (rules.afterWrite i (s.mode i)) }

def opening (s : Storage) (fd : Fd) (flags : OpenFlags) (i : Nat) : Storage :=
  { s with openFiles := Function.update s.openFiles fd (some { inode := i, flags }) }

def closing (s : Storage) (fd : Fd) : Storage :=
  { s with openFiles := Function.update s.openFiles fd none }

def freeing (s : Storage) : Option Fd → Storage
  | none => s
  | some fd => s.closing fd

/-- Opening a file that is there, or making it with the permissions that such a file gets. -/
inductive Opens (s : Storage) (rules : Rules) (place : Nat) (flags : OpenFlags) (mode : Nat → Mode)
    (fd : Fd) : Storage → Prop
  | existing {i : Nat} : s.inode place = some i →
      (flags.has .create && flags.has .exclusive) = false →
      Opens s rules place flags mode fd
        ((if flags.has .truncate then s.emptying rules i else s).opening fd flags i)
  | created {i : Nat} : s.inode place = none → flags.has .create = true → s.Unused i →
      Opens s rules place flags mode fd ((s.making place i (mode i)).opening fd flags i)

def writeOffset (s : Storage) (f : Kernel.OpenFile) : Nat :=
  if f.flags.has .append then (s.content f.inode).length else f.offset

def written (s : Storage) (rules : Rules) (fd : Fd) (f : Kernel.OpenFile) (offset : Nat)
    (data : Bytes) : Storage :=
  { s with
    content := Function.update s.content f.inode (writtenAt (s.content f.inode) offset data)
    mode := Function.update s.mode f.inode (rules.afterWrite f.inode (s.mode f.inode))
    openFiles := Function.update s.openFiles fd (some { f with offset := offset + data.length }) }

def writing (s : Storage) (rules : Rules) (fd : Fd) (data : Bytes) : Storage :=
  match s.openFiles fd with
  | none => s
  | some f => if data = [] then s else s.written rules fd f (s.writeOffset f) data

def Free (s : Storage) (range : AddressRange) : Prop :=
  ∀ m ∈ s.mappings, m.address + m.size ≤ range.start ∨ range.start + range.length ≤ m.address

def mapping (s : Storage) (range : AddressRange) (i offset : Nat) : Storage :=
  { s with mappings := ⟨range.start, range.length, i, offset⟩ :: s.mappings }

def unmapping (s : Storage) (start : Address) : Storage :=
  { s with mappings := s.mappings.filter fun m => m.address ≠ start }

def mappingAt? (s : Storage) (address : Address) : Option Kernel.Mapping :=
  s.mappings.find? fun m => m.address ≤ address && address < m.address + m.size

def load? (s : Storage) (address : Address) : Option UInt8 := do
  let m ← s.mappingAt? address
  (s.content m.inode)[m.offset + (address - m.address)]?

def store (s : Storage) (address : Address) (byte : UInt8) : Storage :=
  match s.mappingAt? address with
  | none => s
  | some m =>
    { s with
      content := Function.update s.content m.inode
        ((s.content m.inode).set (m.offset + (address - m.address)) byte) }

end Storage

/-- How the calls are answered that open, write and map files. No other call is. -/
def Call.stores (rules : Storage.Rules) (s : Storage) : (c : Call) → c.Answer → Storage → Prop
  | .probe path, kind, t => kind = (s.inode (rules.locate path)).map (fun _ => .regular) ∧ t = s
  | .openFile path flags mode, .ok fd, t => s.openFiles fd = none ∧
      s.Opens rules (rules.locate path) flags (rules.initial mode) fd t
  | .changeMode fd mode, .ok _, t =>
      ∃ f, s.openFiles fd = some f ∧ t = s.changeMode f.inode (rules.granted mode f.inode)
  | .write fd data, .ok n, t => (∃ f, s.openFiles fd = some f ∧ f.flags.canWrite = true) ∧
      n ≤ data.length ∧ t = s.writing rules fd (data.take n)
  | .close fd, _, t => t = s.closing fd
  | .mapMemory size _ writable fd offset, .ok start, t =>
      ∃ f, s.openFiles fd = some f ∧ f.flags.canBeMapped writable = true ∧
        s.Free ⟨start, size⟩ ∧ t = s.mapping ⟨start, size⟩ f.inode offset
  | .unmapMemory start _, .ok _, t => t = s.unmapping start
  | .openFile path flags mode, .error e, t =>
      rules.refuses s (.openFile path flags mode) e ∧ t = s
  | .changeMode fd mode, .error e, t => rules.refuses s (.changeMode fd mode) e ∧ t = s
  | .write fd data, .error e, t => rules.refuses s (.write fd data) e ∧ t = s
  | .mapMemory size readable writable fd offset, .error e, t =>
      rules.refuses s (.mapMemory size readable writable fd offset) e ∧ t = s
  | .unmapMemory start size, .error e, t => rules.refuses s (.unmapMemory start size) e ∧ t = s
  | _, _, _ => False

def World.storing (rules : Storage.Rules) : World Storage := World.alone (Call.stores rules)

namespace Storage

variable {s t : Storage} {rules : Rules} {place i : Nat} {flags : OpenFlags} {mode : Nat → Mode}
  {fd : Fd} {f : Kernel.OpenFile}

theorem exists_free (s : Storage) (length : Nat) : ∃ start, s.Free ⟨start, length⟩ := by
  obtain ⟨start, hstart⟩ : ∃ start, ∀ m ∈ s.mappings, m.address + m.size ≤ start := by
    induction s.mappings with
    | nil => exact ⟨0, nofun⟩
    | cons m ms ih =>
      obtain ⟨start, hstart⟩ := ih
      refine ⟨max (m.address + m.size) start, List.forall_mem_cons.mpr ⟨Nat.le_max_left _ _, ?_⟩⟩
      exact fun x hx => Nat.le_trans (hstart x hx) (Nat.le_max_right _ _)
  exact ⟨start, fun m hm => .inl (hstart m hm)⟩

theorem opening_closing (s : Storage) (flags : OpenFlags) (i : Nat) (h : s.openFiles fd = none) :
    (s.opening fd flags i).closing fd = s := by
  simp [opening, closing, ← h]

theorem making_changeMode (s : Storage) (place i : Nat) (mode mode' : Mode) (fd : Fd)
    (flags : OpenFlags) :
    ((s.making place i mode).opening fd flags i).changeMode i mode' =
      (s.making place i mode').opening fd flags i := by
  simp [making, opening, changeMode]

theorem Opens.file (h : s.Opens rules place flags mode fd t) : ∃ i, t.inode place = some i ∧
    t.openFiles = Function.update s.openFiles fd (some { inode := i, flags }) := by
  cases h with
  | @existing i hi =>
    refine ⟨i, ?_, ?_⟩ <;> split
    · exact hi
    · exact hi
    · rfl
    · rfl
  | @created i => exact ⟨i, by simp [making, opening], rfl⟩

theorem Opens.eq_opening (h : s.Opens rules place flags mode fd t) (hi : s.inode place = some i)
    (hflags : flags.has .truncate = false) : t = s.opening fd flags i := by
  cases h with
  | existing hj =>
    obtain rfl := Option.some.inj (hi.symm.trans hj)
    simp [hflags]
  | created hnone => exact absurd (hi.symm.trans hnone) nofun

@[simp] theorem freeing_content (s : Storage) (held : Option Fd) :
    (s.freeing held).content = s.content := by
  cases held <;> rfl

theorem freeing_openFiles {held : Option Fd} (h : (s.freeing held).openFiles fd = some f) :
    s.openFiles fd = some f := by
  cases held with
  | none => exact h
  | some old =>
    by_cases hfd : fd = old
    · simp [freeing, closing, hfd] at h
    · simpa [freeing, closing, hfd] using h

theorem Opens.mappings (h : s.Opens rules place flags mode fd t) : t.mappings = s.mappings := by
  cases h with
  | existing => split <;> rfl
  | created => rfl

section Writing

theorem written_written (s : Storage) (rules : Rules) (fd : Fd) (f : Kernel.OpenFile)
    (offset : Nat) (data more : Bytes) :
    (s.written rules fd f offset data).written rules fd
        { f with offset := offset + data.length } (offset + data.length) more =
      s.written rules fd f offset (data ++ more) := by
  simp [written, writtenAt_writtenAt, Rules.afterWrite_afterWrite, Nat.add_assoc]

theorem writeOffset_written (s : Storage) (rules : Rules) (fd : Fd) (f : Kernel.OpenFile)
    (data : Bytes) :
    (s.written rules fd f (s.writeOffset f) data).writeOffset
      { f with offset := s.writeOffset f + data.length } = s.writeOffset f + data.length := by
  cases h : f.flags.has .append <;> simp [writeOffset, written, h, length_writtenAt_length]

@[simp] theorem writing_nil (s : Storage) (rules : Rules) (fd : Fd) :
    s.writing rules fd [] = s := by
  unfold writing
  split <;> rfl

theorem writing_eq {data : Bytes} (h : s.openFiles fd = some f) (hdata : data ≠ []) :
    s.writing rules fd data = s.written rules fd f (s.writeOffset f) data := by
  simp [writing, h, hdata]

theorem writing_append (s : Storage) (rules : Rules) (fd : Fd) (data more : Bytes) :
    (s.writing rules fd data).writing rules fd more =
      s.writing rules fd (data ++ more) := by
  cases hfd : s.openFiles fd with
  | none => simp [writing, hfd]
  | some f =>
    by_cases hdata : data = []
    · simp [hdata]
    by_cases hmore : more = []
    · simp [hmore]
    have hnext : (s.written rules fd f (s.writeOffset f) data).openFiles fd =
        some { f with offset := s.writeOffset f + data.length } := by
      simp [written]
    rw [writing_eq hfd hdata, writing_eq hnext hmore, writing_eq hfd (by simp [hdata]),
      writeOffset_written, written_written]

end Writing

end Storage

namespace Failure

def OfOpening (name : String) (f : Failure) : Prop :=
  ∃ e, f = .openFailed name e ∨ f = .callFailed "fchmod" ("on file " ++ name) e

end Failure

theorem Descriptor.openFile_gives (file : File) (flags : OpenFlags) (perm : Mode) :
    (openFile file flags perm).EndsIn (fun d => ∃ fd, d = .owning fd file.name)
      (Failure.OfOpening file.name) := by
  refine (Action.endsIn_ask _).andThen fun existed => (Action.endsIn_ask _).andThen fun r => ?_
  cases r with
  | error e =>
    exact (Action.endsIn_log _).andThen fun _ => Action.endsIn_throw ⟨e, .inl rfl⟩
  | ok fd =>
    refine (Action.endsIn_log _).andThen fun _ => ?_
    have hgiven : (Action.log ((owning fd file.name).notice fd "descriptor opened") >>= fun _ =>
        pure (owning fd file.name)).EndsIn (fun d => ∃ fd, d = .owning fd file.name)
          (Failure.OfOpening file.name) :=
      (Action.endsIn_log _).andThen fun _ => Action.endsIn_pure ⟨fd, rfl⟩
    split
    · refine Action.EndsIn.andThen (R := fun _ => True)
        ((Action.endsIn_ask _).andThen fun r => ?_) fun _ => hgiven
      cases r with
      | ok _ => exact Action.endsIn_pure trivial
      | error e =>
        exact (Action.endsIn_perform _).andThen fun _ => Action.endsIn_throw ⟨e, .inr rfl⟩
    · exact hgiven

def Call.IsAnswered (s : Storage) : Call → Prop
  | .probe _ | .close _ => True
  | .changeMode fd _ => ∃ f, s.openFiles fd = some f
  | _ => False

theorem Call.IsAnswered.canGoOn {rules : Storage.Rules} {s : Storage} {c : Call}
    (h : c.IsAnswered s) : (World.storing rules).CanGoOn s c := by
  cases c with
  | probe path => exact .inl ⟨_, s, rfl, rfl⟩
  | close fd => exact .inl ⟨.ok (), _, rfl⟩
  | changeMode fd mode =>
    obtain ⟨f, hf⟩ := h
    exact .inl ⟨.ok (), _, f, hf, rfl⟩
  | _ => exact h.elim

def Contract.unhindered {α : Type} (rules : Storage.Rules) (R : α → Storage → Prop) :
    Contract Storage α :=
  ⟨fun s c => (World.storing rules).CanGoOn s c, R, fun _ _ => False, fun _ => False⟩

theorem World.storing_attains {α : Type} {rules : Storage.Rules} {R : α → Storage → Prop}
    {p : Program α} {s : Storage} (h : (World.storing rules).Meets (.unhindered rules R) p s) :
    (World.storing rules).Attains p s R :=
  h.attains ⟨fun _ => ⟨_, fun _ h => h.elim⟩⟩ (fun _ _ h => h) (fun _ _ h => h) (fun _ _ => id)
    fun _ => id

section Steps

variable {rules : Storage.Rules} {s t : Storage}

/-- What an attempt to open a file may leave. A file that is made has its permissions exactly, or
the number is given back. -/
def Storage.Attempted (rules : Storage.Rules) (s : Storage) (file : File) (flags : OpenFlags)
    (perm : Mode) : Except Failure Descriptor → Storage → Prop
  | .ok d, t => ∃ fd, s.openFiles fd = none ∧ d = .owning fd file.name ∧
      s.Opens rules (rules.locate file.path) flags (rules.granted perm) fd t
  | .error f, t =>
      (∃ e, f = .openFailed file.name e ∧
        rules.refuses s (.openFile file.path flags perm) e ∧ t = s) ∨
      ∃ e i, f = .callFailed "fchmod" ("on file " ++ file.name) e ∧
        s.inode (rules.locate file.path) = none ∧ s.Unused i ∧
        t = s.making (rules.locate file.path) i (rules.initial perm i)

theorem Descriptor.drop_storing {q : Contract Storage Descriptor} (d : Descriptor)
    (hcalls : ∀ u c, c.IsAnswered u → q.calls u c)
    (hreturns : q.returns d.closed (s.freeing d.fd)) :
    (World.storing rules).Meets q d.drop s := by
  obtain ⟨fd, name⟩ := d
  cases fd with
  | none => exact World.alone_done hreturns
  | some fd =>
    refine World.alone_call (hcalls _ _ trivial) fun a t ht => ?_
    obtain rfl := ht
    cases a <;> exact World.alone_done hreturns

theorem Descriptor.dropAll_storing {q : Contract Storage Unit} (d : Option Descriptor)
    (hcalls : ∀ u c, c.IsAnswered u → q.calls u c)
    (hreturns : q.returns () (s.freeing (d.bind fd))) :
    (World.storing rules).Meets q (dropAll d.toList) s := by
  cases d with
  | none => exact World.alone_done hreturns
  | some d =>
    exact (World.meets_bind _ d.drop _).mpr (d.drop_storing hcalls (World.alone_done hreturns))

theorem Descriptor.setExactMode_storing {q : Contract Storage (Except Failure Unit)} {fd : Fd}
    {f : Kernel.OpenFile} {name : String} {perm : Mode} (hf : s.openFiles fd = some f)
    (hcalls : ∀ u c, c.IsAnswered u → q.calls u c)
    (hset : q.returns (.ok ()) (s.changeMode f.inode (rules.granted perm f.inode)))
    (hfailed : ∀ e, q.returns (.error (.callFailed "fchmod" ("on file " ++ name) e))
      (s.closing fd)) :
    (World.storing rules).Meets q ((owning fd name).setExactMode fd perm).run s := by
  refine World.alone_call (hcalls _ _ ⟨f, hf⟩) fun a t ht => ?_
  cases a with
  | ok _ =>
    obtain ⟨f', hf', rfl⟩ := ht
    obtain rfl := Option.some.inj (hf.symm.trans hf')
    exact World.alone_done hset
  | error e =>
    obtain ⟨-, rfl⟩ := ht
    refine (World.meets_lift_bind _ (owning fd name).drop _).mpr ?_
    exact drop_storing _ hcalls (World.alone_done (hfailed e))

theorem Descriptor.openFile_storing {q : Contract Storage (Except Failure Descriptor)}
    (file : File) (flags : OpenFlags) (perm : Mode)
    (hopen : q.calls s (.openFile file.path flags perm))
    (hcalls : ∀ u c, c.IsAnswered u → q.calls u c)
    (hreturns : ∀ r t, s.Attempted rules file flags perm r t → q.returns r t) :
    (World.storing rules).Meets q (openFile file flags perm).run s := by
  refine World.alone_call (hcalls _ _ trivial) fun kind t ht => ?_
  obtain ⟨rfl, rfl⟩ := ht
  refine World.alone_call hopen fun a u hu => ?_
  cases a with
  | error e => exact World.alone_done (hreturns _ _ (.inl ⟨e, rfl, hu⟩))
  | ok fd =>
    obtain ⟨hfd, hopens⟩ := hu
    change (World.storing rules).Meets _ (ExceptT.run (if _ then _ else _)) _
    cases hopens with
    | @existing i hi hexclusive =>
      rw [if_neg (by simp [hi])]
      exact World.alone_done (hreturns _ _ ⟨fd, hfd, rfl, .existing hi hexclusive⟩)
    | @created i hi hcreate hunused =>
      rw [if_pos (by simp [hi, hcreate])]
      refine (World.meets_action_bind _ _ _).mpr
        (setExactMode_storing (f := { inode := i, flags }) (by simp [Storage.opening]) hcalls ?_
          fun e => ?_)
      · rw [Storage.making_changeMode]
        exact World.alone_done (hreturns _ _ ⟨fd, hfd, rfl, .created hi hcreate hunused⟩)
      · rw [Storage.opening_closing (t.making _ i _) _ _ hfd]
        exact World.alone_done (hreturns _ _ (.inr ⟨e, i, rfl, hi, hunused, rfl⟩))

theorem Descriptor.write_storing (name : String) (fd : Fd) (data : Bytes) :
    (World.storing rules).Meets (.result fun r t => match r with
        | .ok n => t = s.writing rules fd (data.take n)
        | .error _ => t = s)
      ((owning fd name).write data).run s := by
  refine World.alone_call trivial fun a t ht => ?_
  cases a with
  | ok n => exact World.alone_done ht.2.2
  | error e => exact World.alone_done ht.2

open Contract (asking)

/-- However the system splits it, what was written in full stands in the file as if it had been
written at once. -/
theorem Descriptor.writeAll_storing (name : String) (fd : Fd) (rounds : Nat) (data : Bytes) :
    (World.storing rules).Meets
      (asking (fun _ _ => True) fun _ t => t = s.writing rules fd data)
      ((owning fd name).writeAll rounds data).run s := by
  induction rounds generalizing s data with
  | zero =>
    cases data with
    | nil => exact World.alone_done fun _ _ => (s.writing_nil _ _).symm
    | cons b bs => exact fun _ _ => trivial
  | succ rounds ih =>
    cases data with
    | nil => exact World.alone_done fun _ _ => (s.writing_nil _ _).symm
    | cons b bs =>
      refine World.Meets.lift_bind (write_storing name fd (b :: bs)) fun r t ht => ?_
      split
      · exact asking.failed _
      · rename_i n
        subst ht
        have hsplit : (b :: bs).take (n + 1) ++ bs.drop n = b :: bs := by simp
        refine (ih (bs.drop n)).returning fun r u hu a ha => ?_
        rw [hu a ha, Storage.writing_append, hsplit]
      · subst ht
        exact ih (b :: bs)
      · exact asking.failed _

theorem Descriptor.writeAll_whole (name : String) {fd : Fd} {f : Kernel.OpenFile} (rounds : Nat)
    (b : UInt8) (bs : Bytes) (hf : s.openFiles fd = some f) (hwrite : f.flags.canWrite = true) :
    (World.storing rules).Returns ((owning fd name).writeAll (rounds + 1) (b :: bs)).run
      s (.ok ()) (s.writing rules fd (b :: bs)) := by
  have hall : (b :: bs).take (bs.length + 1) = b :: bs := by simp
  have hrest : (owning fd name).writeAll rounds (bs.drop bs.length) = pure () := by
    rw [List.drop_length]
    cases rounds <;> rfl
  refine World.Reaches.call (.ok (bs.length + 1)) ⟨⟨f, hf, hwrite⟩, by simp, by rw [hall]⟩ ?_
  change World.Reaches _
    (((owning fd name).writeAll rounds (bs.drop bs.length)).run, _) _
  rw [hrest]
  exact .refl

end Steps

end OwnedHandles
