import Mathlib.Logic.Function.Basic
import OwnedHandles.Proofs.Exchange
import OwnedHandles.Proofs.Runs
import OwnedHandles.Proofs.Wiring

namespace OwnedHandles

def overwritten (old new : Bytes) : Bytes := new ++ old.drop new.length

theorem overwritten_nil (old : Bytes) : overwritten old [] = old := rfl

theorem take_overwritten (old new : Bytes) : (overwritten old new).take new.length = new :=
  List.take_left

theorem overwritten_eq_iff (old new : Bytes) :
    overwritten old new = new ↔ old.length ≤ new.length := by
  simp [overwritten]

def writtenAt (old : Bytes) (offset : Nat) (new : Bytes) : Bytes :=
  old.take offset ++ List.replicate (offset - old.length) 0 ++ new ++ old.drop (offset + new.length)

theorem writtenAt_overwritten (old new next : Bytes) :
    writtenAt (overwritten old new) new.length next = overwritten old (new ++ next) := by
  simp [writtenAt, overwritten, List.drop_append]

structure Opening where
  inode : Nat
  writable : Bool
  appends : Bool
  offset : Nat
  deriving DecidableEq, Repr

inductive Filing.Child
  | unborn
  | running (pid : Pid) (image : Fd → Option Origin)
  | ended (pid : Pid)

/-- The table of a parent, the file at each place, what is in each file, what was opened one after
the other, and a child with what it has written to its output streams. -/
structure Filing where
  table : Table
  inode : Nat → Option Nat
  content : Nat → Bytes
  openings : List Opening
  child : Filing.Child
  wrote : OutputStream → Bytes

namespace Filing

def start (given : Fd → Option Bool) (inode : Nat → Option Nat) (content : Nat → Bytes) : Filing :=
  ⟨.before given, inode, content, [], .unborn, fun _ => []⟩

def contentAt (s : Filing) (place : Nat) : Bytes :=
  match s.inode place with
  | some i => s.content i
  | none => []

def Unused (s : Filing) (i : Nat) : Prop := ∀ place, s.inode place ≠ some i

def Apart (s : Filing) (place place' : Nat) : Prop :=
  place ≠ place' ∧ ∀ i, s.inode place = some i → s.inode place' ≠ some i

def opening (s : Filing) (fd : Fd) (path : Bytes) (flags : OpenFlags) (i : Nat) : Filing :=
  { s with
    table := s.table.addFile fd path (flags.has .closeOnExec)
    openings := s.openings ++ [⟨i, flags.canWrite, flags.has .append, 0⟩] }

inductive Opens (s : Filing) (place : Nat) (fd : Fd) (path : Bytes) (flags : OpenFlags) :
    Filing → Prop
  | existing {i : Nat} : s.inode place = some i →
      (flags.has .create && flags.has .exclusive) = false →
      Opens s place fd path flags { s.opening fd path flags i with
        content := if flags.has .truncate then Function.update s.content i [] else s.content }
  | created {i : Nat} : s.inode place = none → flags.has .create = true → s.Unused i →
      Opens s place fd path flags { s.opening fd path flags i with
        inode := Function.update s.inode place (some i)
        content := Function.update s.content i [] }

namespace Opens

variable {s t : Filing} {place place' q i : Nat} {fd : Fd} {path : Bytes} {flags : OpenFlags}

theorem contentAt (h : s.Opens place fd path flags t) (hflags : flags.has .truncate = false)
    (q : Nat) : t.contentAt q = s.contentAt q := by
  cases h with
  | existing => simp only [Filing.contentAt, Filing.opening, hflags, Bool.false_eq_true, if_false]
  | @created i hnone _ hunused =>
    by_cases hq : q = place
    · subst hq
      simp [Filing.contentAt, hnone]
    · cases hfile : s.inode q with
      | none => simp [Filing.contentAt, hq, hfile]
      | some k =>
        have hk : k ≠ i := fun hk => hunused q (hk ▸ hfile)
        simp [Filing.contentAt, hq, hfile, hk]

theorem inode_eq_some (h : s.Opens place fd path flags t) (hs : s.inode q = some i) :
    t.inode q = some i := by
  cases h with
  | existing => exact hs
  | created hnone =>
    have hq : q ≠ place := by
      rintro rfl
      cases hnone.symm.trans hs
    simp [hq, hs]

theorem apart (h : s.Opens place fd path flags t) (hs : s.Apart place' q) : t.Apart place' q := by
  refine ⟨hs.1, ?_⟩
  cases h with
  | existing => exact hs.2
  | @created i _ _ hunused =>
    intro k hk hk'
    by_cases hp : place' = place
    · subst hp
      obtain rfl : i = k := by simpa using hk
      exact hunused q (by simpa [Filing.opening, hs.1.symm] using hk')
    · have hsk : s.inode place' = some k := by simpa [Filing.opening, hp] using hk
      by_cases hq : q = place
      · subst hq
        obtain rfl : i = k := by simpa using hk'
        exact hunused place' hsk
      · exact hs.2 k hsk (by simpa [Filing.opening, hq] using hk')

theorem file (h : s.Opens place fd path flags t) : ∃ i, t.inode place = some i ∧
    t.openings = s.openings ++ [⟨i, flags.canWrite, flags.has .append, 0⟩] := by
  cases h with
  | @existing i hs => exact ⟨i, hs, rfl⟩
  | @created i => exact ⟨i, by simp, rfl⟩

theorem table (h : s.Opens place fd path flags t) :
    t.table = s.table.addFile fd path (flags.has .closeOnExec) := by
  cases h <;> rfl

theorem child (h : s.Opens place fd path flags t) : t.child = s.child := by
  cases h <;> rfl

theorem wrote (h : s.Opens place fd path flags t) : t.wrote = s.wrote := by
  cases h <;> rfl

end Opens

def writing (s : Filing) (stream : OutputStream) (index : Nat) (o : Opening) (data : Bytes) :
    Filing :=
  let offset := if o.appends then (s.content o.inode).length else o.offset
  { s with
    content := Function.update s.content o.inode (writtenAt (s.content o.inode) offset data)
    openings := s.openings.set index { o with offset := offset + data.length }
    wrote := Function.update s.wrote stream (s.wrote stream ++ data) }

inductive Move : Filing → Filing → Prop
  | write {s : Filing} {pid : Pid} {image : Fd → Option Origin} {stream : OutputStream}
      {index : Nat} {path data : Bytes} {o : Opening} : s.child = .running pid image →
      image (stream.among 1 2) = some (.opened index path) → s.openings[index]? = some o →
      o.writable = true → Move s (s.writing stream index o data)
  | ends {s : Filing} {pid : Pid} {image : Fd → Option Origin} :
      s.child = .running pid image → Move s { s with child := .ended pid }

end Filing

def ChildTask.Becomes (t : ChildTask) (s : Table) (image : Fd → Option Origin) : Prop :=
  ∃ arguments environment next u,
    World.tables.Reaches (t.main, s) (.call (.exec arguments environment) next, u) ∧
      image = u.image

def WaitStatus.isEnd : WaitStatus → Bool
  | exited .. | signaled .. => true
  | _ => false

/-- How the system answers a parent that does not change files itself. A child that is started gets
to the point where it calls for its program; a wait for it is over when it has ended. -/
def Call.files (locate : Bytes → Nat) (s : Filing) : (c : Call) → c.Answer → Filing → Prop
  | .openFile path flags _, .ok fd, t => s.table.IsLowest fd ∧ s.Opens (locate path) fd path flags t
  | .fork task, .ok pid, t => s.child = .unborn ∧
      ∃ image, task.Becomes s.table image ∧ t = { s with child := .running pid image }
  | .wait pid, .ok status, t => s.child = .ended pid ∧ status.isEnd = true ∧ t = s
  | .write .., .ok _, _ | .unlink _, .ok _, _ | .makeFifo .., .ok _, _ => False
  | c, a, t => ∃ table, c.rewires s.table a table ∧ t = { s with table }

/-- Paths lead to places, and different ones may lead to the same. -/
def World.filing (locate : Bytes → Nat) : World Filing := ⟨Call.files locate, Filing.Move⟩

namespace Filing

variable {s t : Filing} {locate : Bytes → Nat} {target place : OutputStream → Nat}
  {old : OutputStream → Bytes}

def Holds (s : Filing) (place : Nat) (content : Bytes) : Prop :=
  ∃ i, s.inode place = some i ∧ s.content i = content

def Child.WritesTo (target : OutputStream → Nat) (s : Filing) : Child → Prop
  | .unborn => False
  | .running _ image => ∀ o : OutputStream,
      (∃ path, image (o.among 1 2) = some (.opened (o.among 1 2) path)) ∧
      s.openings[o.among 1 2]? = some ⟨target o, true, false, (s.wrote o).length⟩
  | .ended _ => True

/-- A file for each output stream has what was written to it in the place of as much of its old
content. -/
structure Receives (place target : OutputStream → Nat) (old : OutputStream → Bytes) (s : Filing) :
    Prop where
  at_place : ∀ o, s.inode (place o) = some (target o)
  injective : Function.Injective target
  content : ∀ o, s.content (target o) = overwritten (old o) (s.wrote o)
  child : s.child.WritesTo target s

namespace Receives

theorem write (h : s.Receives place target old) {pid : Pid} {image : Fd → Option Origin}
    {stream : OutputStream} {index : Nat} {path data : Bytes} {o : Opening}
    (hchild : s.child = .running pid image)
    (himage : image (stream.among 1 2) = some (.opened index path))
    (hopening : s.openings[index]? = some o) :
    (s.writing stream index o data).Receives place target old := by
  have hruns := h.child
  rw [hchild] at hruns
  obtain ⟨⟨path', hpath'⟩, ho⟩ := hruns stream
  obtain ⟨rfl, rfl⟩ := Origin.opened.inj (Option.some.inj (himage.symm.trans hpath'))
  obtain rfl := Option.some.inj (hopening.symm.trans ho)
  refine ⟨h.at_place, h.injective, fun o => ?_, ?_⟩
  · by_cases heq : o = stream
    · subst heq
      simp [writing, h.content, writtenAt_overwritten]
    · simp [writing, h.injective.ne heq, heq, h.content]
  · change Child.WritesTo target _ s.child
    rw [hchild]
    intro o
    refine ⟨(hruns o).1, ?_⟩
    by_cases heq : o = stream
    · subst heq
      simp [writing, (List.getElem?_eq_some_iff.mp ho).1]
    · have hne : stream.among 1 2 ≠ o.among 1 2 := fun hsame =>
        heq (OutputStream.pipe_inj.mp hsame).symm
      simp [writing, heq, hne, (hruns o).2]

theorem move (h : s.Receives place target old) (hm : Move s t) : t.Receives place target old := by
  cases hm with
  | write hchild himage hopening _ => exact h.write hchild himage hopening
  | ends _ => exact ⟨h.at_place, h.injective, h.content, trivial⟩

theorem others (h : s.Receives place target old) (ho : (World.filing locate).Others s t) :
    t.Receives place target old :=
  ho.keeps (fun _ _ hm hs => hs.move hm) h

theorem rewired (h : s.Receives place target old) (table : Table) :
    { s with table }.Receives place target old :=
  ⟨h.at_place, h.injective, h.content, h.child⟩

end Receives

theorem others_eq (hs : ∀ pid image, s.child ≠ .running pid image)
    (h : (World.filing locate).Others s t) : t = s := by
  induction h with
  | refl => rfl
  | tail _ hm ih =>
    subst ih
    cases hm with
    | write h => exact absurd h (hs _ _)
    | ends h => exact absurd h (hs _ _)

end Filing

def Call.SparesFiles : Call → Prop
  | .openFile .. | .write .. | .unlink _ | .makeFifo .. | .fork _ | .wait _ => False
  | _ => True

theorem Call.SparesFiles.files {locate : Bytes → Nat} {c : Call} (hc : c.SparesFiles)
    {s t : Filing} {a : c.Answer} (h : c.files locate s a t) :
    ∃ table, c.rewires s.table a table ∧ t = { s with table } := by
  cases c <;> first | exact hc.elim | exact h

section Opening

open Contract (asking)

variable {α : Type} {locate : Bytes → Nat} {s : Filing} {P : α → Filing → Prop}

theorem Filing.done_meets {r : Except Failure α} (hs : ∀ pid image, s.child ≠ .running pid image)
    (h : ∀ a, r = .ok a → P a s) :
    (World.filing locate).Meets (asking (fun _ _ => True) P) (.done r) s := by
  intro t ht
  obtain rfl := others_eq hs ht
  exact h

theorem Filing.ofExcept_meets {r : Except Failure α}
    (hs : ∀ pid image, s.child ≠ .running pid image) (h : ∀ a, r = .ok a → P a s) :
    (World.filing locate).Meets (asking (fun _ _ => True) P)
      (MonadExcept.ofExcept r : Action α).run s := by
  rw [Action.run_ofExcept]
  exact done_meets hs h

theorem Descriptor.setExactMode_filing (hs : ∀ pid image, s.child ≠ .running pid image)
    (d : Descriptor) (fd : Fd) (perm : Mode) :
    (World.filing locate).Meets (asking (fun _ _ => True) fun _ t => t = s)
      (d.setExactMode fd perm).run s := by
  refine (World.meets_ask_bind _ _ _).mpr fun t ht => ⟨trivial, fun a u ha => ?_⟩
  obtain rfl := Filing.others_eq hs ht
  cases a with
  | ok _ =>
    obtain ⟨_, rfl, rfl⟩ := ha
    exact Filing.done_meets hs fun _ _ => rfl
  | error e =>
    exact asking.bind (P := fun _ _ => True) (asking.making (C := fun _ => True)
      (Action.makes_lift (d.drop_makes fun _ => trivial)) (fun _ _ _ => trivial)
      fun _ _ => trivial) fun _ _ _ => asking.failed _

theorem Descriptor.openFile_filing (hs : ∀ pid image, s.child ≠ .running pid image) (file : File)
    (flags : OpenFlags) (perm : Mode) :
    (World.filing locate).Meets (asking (fun _ _ => True) fun d t => ∃ fd, d.fd = some fd ∧
      s.table.IsLowest fd ∧ s.Opens (locate file.path) fd file.path flags t)
      (openFile file flags perm).run s := by
  refine (World.meets_ask_bind _ _ _).mpr fun t ht => ⟨trivial, fun kind u hu => ?_⟩
  obtain rfl := Filing.others_eq hs ht
  obtain ⟨_, rfl, rfl⟩ := hu
  refine (World.meets_ask_bind _ _ _).mpr fun u hu => ⟨trivial, fun a v ha => ?_⟩
  obtain rfl := Filing.others_eq hs hu
  cases a with
  | error e => exact (World.meets_log_bind _ _ _).mpr (asking.failed _)
  | ok fd =>
    obtain ⟨hlow, hopens⟩ := ha
    have hv : ∀ pid image, v.child ≠ .running pid image := hopens.child ▸ hs
    have hdone : (World.filing locate).Meets (asking (fun _ _ => True) fun d v =>
        ∃ n, d.fd = some n ∧ u.table.IsLowest n ∧ u.Opens (locate file.path) n file.path flags v)
        (do
          Action.log ((owning fd file.name).notice fd "descriptor opened")
          return owning fd file.name : Action Descriptor).run v := by
      refine (World.meets_log_bind _ _ _).mpr (Filing.done_meets hv fun d hd => ?_)
      obtain rfl := Except.ok.inj hd
      exact ⟨fd, rfl, hlow, hopens⟩
    apply (World.meets_log_bind _ _ _).mpr
    split
    · apply asking.bind (setExactMode_filing hv _ fd perm)
      intro _ w hw
      subst hw
      exact hdone
    · exact hdone

theorem Descriptor.openFile_onLeave_filing (hs : ∀ pid image, s.child ≠ .running pid image)
    (file : File) (flags : OpenFlags) (perm : Mode) (ds : List Descriptor) :
    (World.filing locate).Meets (asking (fun _ _ => True) fun d t => ∃ fd, d.fd = some fd ∧
      s.table.IsLowest fd ∧ s.Opens (locate file.path) fd file.path flags t)
      ((openFile file flags perm).onLeave (dropAll ds)).run s := by
  refine asking.onLeave (C := fun _ => True) (openFile_filing hs file flags perm)
    (dropAll_makes (fun _ => trivial) ds) (fun _ _ _ => trivial) fun d t u h hu => ?_
  obtain ⟨fd, hd, hlow, hopens⟩ := h
  obtain rfl := Filing.others_eq (hopens.child ▸ hs) hu
  exact ⟨fd, hd, hlow, hopens⟩

end Opening

theorem Filing.contentAt_eq {s : Filing} {place i : Nat} (h : s.inode place = some i) :
    s.contentAt place = s.content i := by
  simp [contentAt, h]

theorem Filing.Opens.receives {s t u v : Filing} {place : OutputStream → Nat} {source a b c : Nat}
    {input output error : Bytes} {given : Fd → Option Bool} {image : Fd → Option Origin} {pid : Pid}
    (hin : s.Opens source a input Executable.reading t)
    (hout : t.Opens (place .stdout) b output Executable.writing u)
    (herr : u.Opens (place .stderr) c error Executable.writing v)
    (hopenings : s.openings = []) (hwrote : s.wrote = fun _ => [])
    (hapart : s.Apart (place .stdout) (place .stderr))
    (himage : image = Table.wired given (.opened 0 input) (.opened 1 output) (.opened 2 error)) :
    ∃ target, { v with child := .running pid image }.Receives place target
      fun o => s.contentAt (place o) := by
  obtain ⟨i, -, ht⟩ := hin.file
  obtain ⟨j, huj, hu⟩ := hout.file
  obtain ⟨k, hvk, hv⟩ := herr.file
  have hvj : v.inode (place .stdout) = some j := herr.inode_eq_some huj
  have hplace (o : OutputStream) : v.inode (place o) = some (o.among j k) := by
    cases o with
    | stdout => exact hvj
    | stderr => exact hvk
  have hne : j ≠ k := by
    rintro rfl
    exact (herr.apart (hout.apart (hin.apart hapart))).2 j hvj hvk
  have hkept (q : Nat) : v.contentAt q = s.contentAt q := by
    rw [herr.contentAt (by decide), hout.contentAt (by decide), hin.contentAt (by decide)]
  have hvwrote : v.wrote = fun _ => [] := by
    rw [herr.wrote, hout.wrote, hin.wrote, hwrote]
  refine ⟨OutputStream.among j k, hplace, ?_, fun o => ?_, fun o => ⟨?_, ?_⟩⟩
  · rintro (_ | _) (_ | _) heq
    · rfl
    · exact absurd heq hne
    · exact absurd heq.symm hne
    · rfl
  · change v.content (o.among j k) = overwritten (s.contentAt (place o)) (v.wrote o)
    rw [hvwrote, overwritten_nil, ← hkept, contentAt_eq (hplace o)]
  · subst himage
    cases o with
    | stdout => exact ⟨output, rfl⟩
    | stderr => exact ⟨error, rfl⟩
  · change v.openings[o.among 1 2]? = some ⟨o.among j k, true, false, (v.wrote o).length⟩
    rw [hvwrote, hv, hu, ht, hopenings]
    cases o <;> rfl

theorem Filing.Opens.wired {s t u v : Filing} {p q r a b c : Nat} {input output error : File}
    {image : Fd → Option Origin} {task : ChildTask} (given : Fd → Option Bool)
    (hs : s.table = .before given) (ha : s.table.IsLowest a) (hb : t.table.IsLowest b)
    (hc : u.table.IsLowest c) (hin : s.Opens p a input.path Executable.reading t)
    (hout : t.Opens q b output.path Executable.writing u)
    (herr : u.Opens r c error.path Executable.writing v) (htask : task.stdio = .redirect a b c)
    (hbecomes : task.Becomes v.table image) :
    image = Table.wired given (.opened 0 input.path) (.opened 1 output.path)
      (.opened 2 error.path) := by
  have ht : t.table = (Table.before given).addFile a input.path true := by
    rw [hin.table, hs]
    rfl
  have hu : u.table = ((Table.before given).addFile a input.path true).addFile b output.path
      true := by
    rw [hout.table, ht]
    rfl
  have hv : v.table = Table.withFiles given input output error a b c := by
    rw [herr.table, hu]
    rfl
  obtain ⟨arguments, environment, next, w, hreaches, rfl⟩ := hbecomes
  rw [hv] at hreaches
  exact (Table.withFiles_wired (hs ▸ ha) (ht ▸ hb) (hu ▸ hc) htask).2.calls hreaches arguments
    environment rfl

section Parent

open Contract (asking)

variable {α : Type} {locate : Bytes → Nat} {s t : Filing} {place target : OutputStream → Nat}
  {old : OutputStream → Bytes}

theorem Filing.Receives.keeping {p : Action α} (hp : p.run.Makes Call.SparesFiles)
    (hs : s.Receives place target old) :
    (World.filing locate).Meets (asking (fun _ _ => True) fun _ t => t.Receives place target old)
      p.run s := by
  refine hp.meets_keeping (fun _ _ hm ht => ht.move hm) (fun t c a u hc ha ht => ?_)
    (fun _ _ _ _ => trivial) (fun _ _ ht _ _ => ht) (fun _ _ _ => trivial) (fun _ _ => trivial) hs
  obtain ⟨table, -, rfl⟩ := hc.files ha
  exact ht.rewired table

theorem LaunchPlan.fork_filing (p : LaunchPlan) {stdio : ChildStdio}
    (hs : ∀ pid image, s.child ≠ .running pid image)
    (hchild : ∀ (task : ChildTask) pid image, task.stdio = stdio → task.Becomes s.table image →
      ∃ target, { s with child := .running pid image }.Receives place target old) :
    (World.filing locate).Meets (asking (fun _ _ => True) fun _ t =>
      ∃ target, t.Receives place target old) (p.fork stdio false).run s := by
  have hblock : (World.filing locate).Meets (asking (fun _ _ => True) fun _ t => t = s)
      BlockedSignals.blockAll.run s := by
    refine (World.meets_ask_bind _ _ _).mpr fun t ht => ⟨trivial, fun a u ha => ?_⟩
    obtain rfl := Filing.others_eq hs ht
    obtain ⟨_, rfl, rfl⟩ := ha
    cases a with
    | ok _ => exact Filing.done_meets hs fun _ _ => rfl
    | error e => exact asking.failed _
  apply asking.bind hblock
  intro b t ht
  subst ht
  apply (World.meets_ask_bind _ _ _).mpr
  intro u hu
  obtain rfl := Filing.others_eq hs hu
  refine ⟨trivial, fun a v ha => ?_⟩
  cases a with
  | error e =>
    exact asking.bind (P := fun _ _ => True) (asking.making (C := fun _ => True)
      (Action.makes_lift (b.drop_makes fun _ => trivial)) (fun _ _ _ => trivial)
      fun _ _ => trivial) fun _ _ _ => asking.failed _
  | ok pid =>
    obtain ⟨-, image, hbecomes, rfl⟩ := ha
    obtain ⟨target, hreceives⟩ := hchild _ pid image rfl hbecomes
    refine (hreceives.keeping ?_).returning fun r t ht a ha => ⟨target, ht a ha⟩
    exact Action.makes_bind (Action.makes_lift (b.restoreLogged_makes fun _ => trivial))
      fun _ => trivial

theorem Executable.redirect_filing (e : Executable) (params : List Bytes)
    (env : Option Environment) (input output error : File) (perm : Mode)
    {given : Fd → Option Bool} {inode : Nat → Option Nat} {content : Nat → Bytes}
    (hs : s = .start given inode content)
    (hplace : place = OutputStream.among (locate output.path) (locate error.path))
    (hapart : s.Apart (place .stdout) (place .stderr)) :
    (World.filing locate).Meets (asking (fun _ _ => True) fun _ t =>
      ∃ target, t.Receives place target fun o => s.contentAt (place o))
      (e.redirect params env input output error perm).run s := by
  have hstart : ∀ pid image, s.child ≠ .running pid image := hs ▸ nofun
  have hleave (ds : List Descriptor) : (Descriptor.dropAll ds).Makes fun _ => True :=
    Descriptor.dropAll_makes (fun _ => trivial) ds
  apply asking.bind (Filing.ofExcept_meets (P := fun _ t => t = s) hstart fun _ _ => rfl)
  intro plan s' hs'
  subst s'
  apply asking.bind (Descriptor.openFile_filing hstart input reading perm)
  rintro stdin t ⟨a, ha, hlow, hin⟩
  have ht : ∀ pid image, t.child ≠ .running pid image := hin.child ▸ hstart
  apply asking.bind (Descriptor.openFile_onLeave_filing ht output writing perm _)
  rintro stdout u ⟨b, hb, hlow', hout⟩
  have hu : ∀ pid image, u.child ≠ .running pid image := hout.child ▸ ht
  apply asking.bind (Descriptor.openFile_onLeave_filing hu error writing perm _)
  rintro stderr v ⟨c, hc, hlow'', herr⟩
  have hv : ∀ pid image, v.child ≠ .running pid image := herr.child ▸ hu
  have hstdio : (World.filing locate).Meets (asking (fun _ _ => True) fun stdio t =>
      t = v ∧ stdio = .redirect a b c) ((MonadExcept.ofExcept (ChildStdio.ofDescriptors stdin
        stdout stderr) : Action ChildStdio).onLeave
          (Descriptor.dropAll [stderr, stdout, stdin])).run v := by
    refine asking.onLeave (Filing.ofExcept_meets hv fun stdio h => ⟨rfl, ?_⟩) (hleave _)
      (fun _ _ _ => trivial) ?_
    · exact Except.ok.inj (h.symm.trans (ChildStdio.ofDescriptors_ok ha hb hc))
    · rintro stdio _ w ⟨rfl, hstdio⟩ hw
      exact ⟨Filing.others_eq hv hw, hstdio⟩
  have hfork : (World.filing locate).Meets (asking (fun _ _ => True) fun _ t =>
      ∃ target, t.Receives place target fun o => s.contentAt (place o))
      ((plan.fork (.redirect a b c) false).onLeave
        (Descriptor.dropAll [stderr, stdout, stdin])).run v := by
    refine asking.onLeave (plan.fork_filing hv fun task pid image htask hbecomes => ?_)
      (hleave _) (fun _ _ _ => trivial) ?_
    · have himage := hin.wired given (hs ▸ rfl) hlow hlow' hlow'' hout herr htask hbecomes
      subst hplace
      exact hin.receives hout herr (hs ▸ rfl) (hs ▸ rfl) hapart himage
    · rintro _ w x ⟨target, hreceives⟩ hx
      exact ⟨target, hreceives.others hx⟩
  apply asking.bind hstdio
  rintro _ w ⟨hw, rfl⟩
  subst hw
  apply asking.bind hfork
  rintro process x ⟨target, hreceives⟩
  refine (hreceives.keeping ?_).returning fun r t ht a ha => ⟨target, ht a ha⟩
  exact Action.makes_bind (Action.makes_lift (Descriptor.dropAll_makes (fun _ => trivial) _))
    fun _ => trivial

theorem ProcessHandle.join_filing (p : ProcessHandle) (self : Pid) (strict : Bool)
    (hs : s.Receives place target old) :
    (World.filing locate).Meets (.result fun r t => t.Receives place target old ∧
      ((∀ context e, r ≠ .error (.callFailed "waitpid" context e)) → ∃ pid, t.child = .ended pid))
      (p.join self strict).run s := by
  unfold join
  split
  · exact fun _ _ => trivial
  · refine (World.meets_ask_bind _ _ _).mpr fun t ht => ⟨trivial, fun a u ha => ?_⟩
    have hreceives := hs.others ht
    cases a with
    | error e =>
      obtain ⟨_, rfl, rfl⟩ := ha
      exact fun v hv => ⟨hreceives.others hv, fun h => absurd rfl (h _ _)⟩
    | ok status =>
      obtain ⟨hended, -, rfl⟩ := ha
      refine (World.meets_log_bind _ _ _).mpr ((World.meets_ofExcept _ _).mpr fun v hv => ?_)
      obtain rfl := Filing.others_eq (hended ▸ nofun) hv
      exact ⟨hreceives, fun _ => ⟨_, hended⟩⟩

/-- A redirected child that has been waited for has left in each of its files what it wrote to that
stream, followed by what the old content has beyond as many bytes. So there is nothing else in the
file exactly if there was no more in it before. -/
theorem Executable.redirect_overwrites (e : Executable) (params : List Bytes)
    (env : Option Environment) (input output error : File) (perm : Mode)
    {given : Fd → Option Bool} {inode : Nat → Option Nat} {content : Nat → Bytes}
    (hapart : (Filing.start given inode content).Apart (locate output.path) (locate error.path))
    {p : ProcessHandle} (hredirect : (World.filing locate).Returns
      (e.redirect params env input output error perm).run (.start given inode content) (.ok p) s)
    {self : Pid} {strict : Bool} {r : Except Failure Int}
    (hjoin : (World.filing locate).Returns (p.join self strict).run s r t)
    (hr : ∀ context e, r ≠ .error (.callFailed "waitpid" context e)) :
    (∀ o : OutputStream,
      let place := o.among (locate output.path) (locate error.path)
      let old := (Filing.start given inode content).contentAt place
      t.Holds place (overwritten old (t.wrote o)) ∧
        (t.Holds place (t.wrote o) ↔ old.length ≤ (t.wrote o).length)) ∧
      ∀ u, (World.filing locate).Others t u → u = t := by
  obtain ⟨target, hs⟩ := (e.redirect_filing params env input output error perm rfl rfl
    hapart).returns hredirect p rfl
  obtain ⟨ht, hended⟩ := (p.join_filing self strict hs).returns hjoin
  obtain ⟨pid, hpid⟩ := hended hr
  refine ⟨fun o => ⟨⟨target o, ht.at_place o, ht.content o⟩, ?_⟩, fun u hu => ?_⟩
  · rw [← overwritten_eq_iff]
    constructor
    · rintro ⟨i, hi, hcontent⟩
      obtain rfl := Option.some.inj (hi.symm.trans (ht.at_place o))
      exact (ht.content o).symm.trans hcontent
    · intro h
      exact ⟨target o, ht.at_place o, (ht.content o).trans h⟩
  · exact Filing.others_eq (hpid ▸ nofun) hu

end Parent

namespace Executable

theorem exists_redirected_run (old : Bytes) :
    let start : Filing := .start (fun _ => none) some fun i => if i = 2 then old else []
    ∃ p s t, (World.filing List.length).Returns
        (shell.redirect [] none ⟨[1]⟩ ⟨[1, 1]⟩ ⟨[1, 1, 1]⟩ 0).run start (.ok p) s ∧
      (World.filing List.length).Returns (p.join 1 false).run s (.ok 0) t ∧
      t.wrote .stdout = [104] ∧ t.contentAt 2 = writtenAt old 0 [104] := by
  intro start
  let task : ChildTask :=
    { plan := { arguments := ⟨[Bytes.ofString "/bin/sh"]⟩, environment := none
                commandLine := Bytes.ofString "/bin/sh" }
      stdio := .redirect 0 1 2, detached := false, mask := 0 }
  let answers : List Answered :=
    [⟨.probe [1], some .regular⟩, ⟨.openFile [1] reading 0, .ok 0⟩,
      ⟨.probe [1, 1], some .regular⟩, ⟨.openFile [1, 1] writing 0, .ok 1⟩,
      ⟨.probe [1, 1, 1], some .regular⟩, ⟨.openFile [1, 1, 1] writing 0, .ok 2⟩,
      ⟨.setMask .full, .ok 0⟩, ⟨.fork task, .ok 7⟩, ⟨.setMask 0, .ok .full⟩,
      ⟨.close 0, .ok ()⟩, ⟨.close 1, .ok ()⟩, ⟨.close 2, .ok ()⟩]
  let wiring : List Answered :=
    [⟨.setDisposition Signal.SIGTERM.number .byDefault, .ok ()⟩,
      ⟨.setDisposition Signal.SIGINT.number .byDefault, .ok ()⟩, ⟨.setMask 0, .ok .full⟩,
      ⟨.setCloseOnExec 0 false, .ok ()⟩, ⟨.setCloseOnExec 1 false, .ok ()⟩,
      ⟨.setCloseOnExec 2 false, .ok ()⟩]
  let p : ProcessHandle := { pid := 7, name := some "/bin/sh" }
  have hanswers : ((shell.redirect [] none ⟨[1]⟩ ⟨[1, 1]⟩ ⟨[1, 1, 1]⟩ 0).run.follow answers).bind
      Program.result? = some (.ok p) := by
    decide +kernel
  have hwiring : (task.main.follow wiring).bind Program.call? =
      some (.exec task.plan.arguments none) := by
    decide +kernel
  let first : Table := (Table.before fun _ => none).addFile 0 [1] true
  let second : Table := first.addFile 1 [1, 1] true
  let third : Table := second.addFile 2 [1, 1, 1] true
  let wired : Table := ((third.put 0 ⟨.opened 0 [1], false⟩).put 1 ⟨.opened 1 [1, 1], false⟩).put 2
    ⟨.opened 2 [1, 1, 1], false⟩
  have hwired : World.tables.Allows third wiring wired := by
    iterate 3 refine .answer rfl ?_
    iterate 3 refine .answer ⟨_, rfl, rfl⟩ ?_
    exact .nil _
  obtain ⟨next, hreaches⟩ := hwired.calls hwiring
  have hbecomes : task.Becomes third wired.image := ⟨_, _, next, wired, hreaches, rfl⟩
  have hsecond : first.IsLowest 1 := ⟨rfl, by decide⟩
  have hthird : second.IsLowest 2 := ⟨rfl, by decide⟩
  let s : Filing :=
    { start with
      table := ((third.remove 0).remove 1).remove 2
      openings := [⟨1, false, false, 0⟩, ⟨2, true, false, 0⟩, ⟨3, true, false, 0⟩]
      child := .running 7 wired.image }
  let t : Filing := { s.writing .stdout 1 ⟨2, true, false, 0⟩ [104] with child := .ended 7 }
  have hstarts : (World.filing List.length).Allows start answers s := by
    refine .answer ⟨_, rfl, rfl⟩ (.answer ⟨⟨rfl, nofun⟩, .existing rfl rfl⟩ ?_)
    refine .answer ⟨_, rfl, rfl⟩ (.answer ⟨hsecond, .existing rfl rfl⟩ ?_)
    refine .answer ⟨_, rfl, rfl⟩ (.answer ⟨hthird, .existing rfl rfl⟩ ?_)
    refine .answer ⟨_, rfl, rfl⟩ (.answer ⟨rfl, _, hbecomes, rfl⟩ ?_)
    iterate 4 refine .answer ⟨_, rfl, rfl⟩ ?_
    exact .nil _
  have hends : (World.filing List.length).Allows s [⟨.wait 7, .ok (.exited 7 0)⟩] t :=
    .move (.write rfl rfl rfl rfl) (.move (.ends rfl) (.answer ⟨rfl, rfl, rfl⟩ (.nil _)))
  exact ⟨p, s, t, hstarts.returns hanswers, hends.returns (by decide +kernel), rfl, rfl⟩

theorem redirect_overwrites_byte :
    let start : Filing := .start (fun _ => none) some fun i => if i = 2 then [97] else []
    ∃ p s t, start.Apart 2 3 ∧ (World.filing List.length).Returns
        (shell.redirect [] none ⟨[1]⟩ ⟨[1, 1]⟩ ⟨[1, 1, 1]⟩ 0).run start (.ok p) s ∧
      (World.filing List.length).Returns (p.join 1 false).run s (.ok 0) t ∧
      t.wrote .stdout = [104] ∧ t.Holds 2 [104] := by
  intro start
  obtain ⟨p, s, t, hredirect, hjoin, hwrote, -⟩ := exists_redirected_run [97]
  have hapart : start.Apart 2 3 := ⟨by decide, fun i h h' => by cases h; cases h'⟩
  obtain ⟨hfiles, -⟩ := shell.redirect_overwrites [] none ⟨[1]⟩ ⟨[1, 1]⟩ ⟨[1, 1, 1]⟩ 0 hapart
    hredirect hjoin nofun
  obtain ⟨-, hexactly⟩ := hfiles .stdout
  rw [hwrote] at hexactly
  exact ⟨p, s, t, hapart, hredirect, hjoin, hwrote, hexactly.mpr (by decide)⟩

/-- One byte in the place of two leaves the second one there. -/
theorem redirect_leaves_tail :
    let start : Filing := .start (fun _ => none) some fun i => if i = 2 then [97, 98] else []
    ∃ p s t, start.Apart 2 3 ∧ (World.filing List.length).Returns
        (shell.redirect [] none ⟨[1]⟩ ⟨[1, 1]⟩ ⟨[1, 1, 1]⟩ 0).run start (.ok p) s ∧
      (World.filing List.length).Returns (p.join 1 false).run s (.ok 0) t ∧
      t.wrote .stdout = [104] ∧ t.contentAt 2 = [104, 98] ∧ ¬t.Holds 2 (t.wrote .stdout) := by
  intro start
  obtain ⟨p, s, t, hredirect, hjoin, hwrote, hcontent⟩ := exists_redirected_run [97, 98]
  have hapart : start.Apart 2 3 := ⟨by decide, fun i h h' => by cases h; cases h'⟩
  refine ⟨p, s, t, hapart, hredirect, hjoin, hwrote, hcontent, ?_⟩
  rintro ⟨i, hi, hexact⟩
  rw [Filing.contentAt_eq hi, hexact, hwrote] at hcontent
  cases hcontent

end Executable

end OwnedHandles
