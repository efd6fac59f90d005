import Mathlib.Logic.Function.Basic
import OwnedHandles.FifoConnection
import OwnedHandles.Proofs.World

namespace OwnedHandles

structure ChannelEnd where
  reads : Bool
  writes : Bool
  waits : Bool

namespace ChannelEnd

def ofFlags (flags : OpenFlags) : ChannelEnd :=
  ⟨flags.canRead, flags.canWrite, !flags.has .nonblock⟩

def hindrance (e : ChannelEnd) : Errno := if e.waits then .EINTR else .EAGAIN

end ChannelEnd

inductive Transfer
  | put (data : Bytes)
  | took (queued : Bytes) (count : Nat)

namespace Transfer

def given? : Transfer → Option Bytes
  | put data => some data
  | took .. => none

def taken? : Transfer → Option Bytes
  | put _ => none
  | took queued count => some (queued.take count)

end Transfer

structure Channel (ι : Type) where
  queue : Bytes := []
  ends : Fd → Option ChannelEnd
  log : List (ι × Transfer) := []

namespace Channel

variable {ι : Type}

def atomic : Nat := 4096

def Reads (s : Channel ι) (fd : Fd) : Prop := ∃ e, s.ends fd = some e ∧ e.reads = true

def Writes (s : Channel ι) (fd : Fd) : Prop := ∃ e, s.ends fd = some e ∧ e.writes = true

def HasReader (s : Channel ι) : Prop := ∃ fd, s.Reads fd

def HasWriter (s : Channel ι) : Prop := ∃ fd, s.Writes fd

def put (s : Channel ι) (i : ι) (data : Bytes) : Channel ι :=
  { s with queue := s.queue ++ data, log := s.log ++ [(i, .put data)] }

def take (s : Channel ι) (i : ι) (count : Nat) : Channel ι :=
  { s with queue := s.queue.drop count, log := s.log ++ [(i, .took s.queue count)] }

def withEnd (s : Channel ι) (fd : Fd) (e : ChannelEnd) : Channel ι :=
  { s with ends := Function.update s.ends fd (some e) }

/-- A queue that is not empty may have no room. -/
inductive Written (s : Channel ι) (i : ι) (fd : Fd) (data : Bytes) :
    Except Errno Nat → Channel ι → Prop
  | kept : s.Writes fd → s.HasReader → Written s i fd data (.ok data.length) (s.put i data)
  | full {e} : s.ends fd = some e → s.queue ≠ [] → Written s i fd data (.error e.hindrance) s
  | unread : ¬s.HasReader → Written s i fd data (.error .EPIPE) s
  | closed : ¬s.Writes fd → Written s i fd data (.error .EBADF) s

inductive Taken (s : Channel ι) (i : ι) (fd : Fd) (count : Nat) :
    Except Errno Bytes → Channel ι → Prop
  | data : s.Reads fd → s.queue ≠ [] →
      Taken s i fd count (.ok (s.queue.take count)) (s.take i count)
  | ended : s.Reads fd → s.queue = [] → ¬s.HasWriter → Taken s i fd count (.ok []) s
  | empty {e} : s.ends fd = some e → s.queue = [] → s.HasWriter →
      Taken s i fd count (.error e.hindrance) s
  | closed : ¬s.Reads fd → Taken s i fd count (.error .EBADF) s

/-- An end that only writes opens when there is one that reads. -/
inductive Opened (s : Channel ι) (flags : OpenFlags) : Except Errno Fd → Channel ι → Prop
  | fresh {fd} : s.ends fd = none → (flags.canRead = true ∨ s.HasReader) →
      Opened s flags (.ok fd) (s.withEnd fd (.ofFlags flags))
  | refused (e : Errno) : Opened s flags (.error e) s

/-- What is queued goes with the last end. -/
inductive Closed (s : Channel ι) (fd : Fd) : Channel ι → Prop
  | others {fd'} : fd' ≠ fd → (s.ends fd').isSome →
      Closed s fd { s with ends := Function.update s.ends fd none }
  | last : (∀ fd' ≠ fd, s.ends fd' = none) →
      Closed s fd { s with queue := [], ends := Function.update s.ends fd none }

def doneBy [DecidableEq ι] (s : Channel ι) (i : ι) : List Transfer :=
  (s.log.filter (·.1 = i)).map Prod.snd

section

variable [DecidableEq ι]

@[simp] theorem doneBy_put (s : Channel ι) (i : ι) (data : Bytes) :
    (s.put i data).doneBy i = s.doneBy i ++ [.put data] := by
  simp [doneBy, put]

@[simp] theorem doneBy_take (s : Channel ι) (i : ι) (count : Nat) :
    (s.take i count).doneBy i = s.doneBy i ++ [.took s.queue count] := by
  simp [doneBy, take]

theorem doneBy_put_of_ne (s : Channel ι) {i j : ι} (h : j ≠ i) (data : Bytes) :
    (s.put j data).doneBy i = s.doneBy i := by
  simp [doneBy, put, h]

theorem doneBy_take_of_ne (s : Channel ι) {i j : ι} (h : j ≠ i) (count : Nat) :
    (s.take j count).doneBy i = s.doneBy i := by
  simp [doneBy, take, h]

end

def answers (i : ι) (s : Channel ι) : (c : Call) → c.Answer → Channel ι → Prop
  | .probe _, _, t => t = s
  | .openFile _ flags _, a, t => s.Opened flags a t
  | .read fd count, a, t => 0 < count ∧ s.Taken i fd count a t
  | .write fd data, a, t => data ≠ [] ∧ data.length ≤ atomic ∧ s.Written i fd data a t
  | .close fd, _, t => s.Closed fd t
  | .pause _, _, t => t = s
  | _, _, _ => False

end Channel

namespace FifoConnection

theorem send_run (c : FifoConnection) (message : Bytes) :
    (c.send message).run =
      if message.length = 0 ∨ 512 ≤ message.length then
        .done (.error (.invalidMessage message.length 512))
      else match c.descriptor with
        | none => .done (.error (.callFailed "open"
            ("FIFO " ++ c.file.name ++ " has no open descriptor") .EBADF))
        | some ⟨none, name⟩ => .done (.error (.writeFailed name .EBADF))
        | some ⟨some fd, name⟩ => .call (.write fd message) fun
          | .ok _ => .done (.ok ())
          | .error e => .done (.error (.writeFailed name e)) := by
  obtain ⟨file, descriptor, blocking⟩ := c
  unfold send checkLength Limits.fifoMessage
  split
  · rfl
  · cases descriptor with
    | none => rfl
    | some d =>
      obtain ⟨fd, name⟩ := d
      cases fd with
      | none => rfl
      | some fd =>
        exact congrArg (Program.call (.write fd message)) (funext fun a => by cases a <;> rfl)

theorem readMessageFrom_run (fd : Option Fd) (name : String) (acceptEnd : Bool) (rounds : Nat) :
    (readMessageFrom ⟨fd, name⟩ acceptEnd (rounds + 1)).run = match fd with
      | none => .done (.error (.readFailed name .EBADF))
      | some n => .call (.read n 511) fun
        | .error e => .done (.error (.readFailed name e))
        | .ok (b :: bs) => .done (.ok (Text.decodeLossy (b :: bs)))
        | .ok [] =>
          if acceptEnd then .done (.ok "")
          else .call (.pause Limits.fifoPollMilliseconds) fun _ =>
            (readMessageFrom ⟨fd, name⟩ acceptEnd rounds).run := by
  cases fd with
  | none => rfl
  | some n =>
    refine congrArg (Program.call (.read n 511)) (funext fun a => ?_)
    cases a with
    | error e => rfl
    | ok data =>
      cases data with
      | nil => cases acceptEnd <;> rfl
      | cons b bs => rfl

end FifoConnection

namespace Channel

variable {ι β : Type} {i : ι} {s : Channel ι} {c : FifoConnection} {fd : Fd} {name : String}
  {q : Contract (Channel ι) β}

def settling {α : Type} (i : ι) (a : α) : Contract (Channel ι) α where
  calls t c := (World.alone (answers i)).CanGoOn t c
  returns b _ := b = a
  breaks _ _ := False
  givesUp _ := False

theorem settling_done {α : Type} (i : ι) (a : α) (s : Channel ι) :
    (World.alone (answers i)).Meets (settling i a) (.done a) s :=
  World.alone_done rfl

theorem settling_yields {α : Type} {p : Program α} {a : α}
    (h : (World.alone (answers i)).Meets (settling i a) p s) :
    (World.alone (answers i)).Yields p s a :=
  h.yields ⟨fun t => ⟨t, fun _ ht => ht.elim⟩⟩ (fun _ _ h => h) (fun _ _ h => h) (fun _ _ h => h)
    fun _ h => h

theorem alone_send {m : Bytes} {f : Except Failure Unit → Program β}
    (hc : c.descriptor = some ⟨some fd, name⟩) (hqueue : s.queue = []) (hwrites : s.Writes fd)
    (hreader : s.HasReader) (hlength : 0 < m.length ∧ m.length < 512)
    (hcall : q.calls s (.write fd m))
    (hf : (World.alone (answers i)).Meets q (f (.ok ())) (s.put i m)) :
    (World.alone (answers i)).Meets q ((c.send m).run.bind f) s := by
  rw [FifoConnection.send_run, if_neg (by omega), hc]
  refine World.alone_call hcall fun a t ha => ?_
  obtain ⟨-, -, ha⟩ := ha
  cases ha with
  | kept => exact hf
  | full _ h => exact absurd hqueue h
  | unread h => exact absurd hreader h
  | closed h => exact absurd hwrites h

theorem send_answered {m : Bytes} (hwrites : s.Writes fd) (hreader : s.HasReader)
    (hlength : 0 < m.length ∧ m.length < 512) :
    (World.alone (answers i)).CanGoOn s (.write fd m) := by
  refine .inl ⟨.ok m.length, s.put i m, List.ne_nil_of_length_pos hlength.1, ?_,
    .kept hwrites hreader⟩
  exact Nat.le_of_lt (Nat.lt_trans hlength.2 (by decide))

theorem alone_read {rounds : Nat} {f : Except Failure String → Program β}
    (hc : c.descriptor = some ⟨some fd, name⟩) (hreads : s.Reads fd) (hqueue : s.queue ≠ [])
    (hcall : q.calls s (.read fd 511))
    (hf : (World.alone (answers i)).Meets q (f (.ok (Text.decodeLossy (s.queue.take 511))))
      (s.take i 511)) :
    (World.alone (answers i)).Meets q ((c.read (rounds + 1)).run.bind f) s := by
  have hrun : (c.read (rounds + 1)).run =
      (FifoConnection.readMessageFrom ⟨some fd, name⟩ (!c.blocking) (rounds + 1)).run := by
    simp [FifoConnection.read, FifoConnection.held, hc]
  rw [hrun, FifoConnection.readMessageFrom_run]
  refine World.alone_call hcall fun a t ha => ?_
  obtain ⟨-, ha⟩ := ha
  cases ha with
  | data =>
    cases htake : s.queue.take 511 with
    | nil =>
      have hne : s.queue.take 511 ≠ [] := by simp [hqueue]
      exact absurd htake hne
    | cons b bs => rwa [htake] at hf
  | ended _ h => exact absurd h hqueue
  | empty _ h => exact absurd h hqueue
  | closed h => exact absurd hreads h

theorem read_answered (hreads : s.Reads fd) (hqueue : s.queue ≠ []) :
    (World.alone (answers i)).CanGoOn s (.read fd 511) :=
  .inl ⟨_, _, by decide, .data hreads hqueue⟩

end Channel

section

variable (ι : Type)

def Channel.single : Channel ι where
  ends fd := if fd = 3 then some ⟨true, true, false⟩ else none

theorem Channel.single_reads : (single ι).Reads 3 := ⟨_, rfl, rfl⟩

theorem Channel.single_writes : (single ι).Writes 3 := ⟨_, rfl, rfl⟩

def FifoConnection.single : FifoConnection where
  file := ⟨[102]⟩
  descriptor := some ⟨some 3, "f"⟩
  blocking := false

end

end OwnedHandles
