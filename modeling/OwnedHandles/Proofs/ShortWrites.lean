import OwnedHandles.Proofs.Lifecycle
import OwnedHandles.Proofs.Openings

namespace OwnedHandles

namespace Happening

def write? : Happening → Option (Fd × Bytes × Except Errno Nat)
  | called ⟨.write fd data, a⟩ => some (fd, data, a)
  | _ => none

def Legal (x : Happening) : Prop := ∀ fd data n, x.write? = some (fd, data, .ok n) → n ≤ data.length

def taken : Fd × Bytes × Except Errno Nat → Bytes
  | (_, data, .ok n) => data.take n
  | (_, _, .error _) => []

def accepted (h : List Happening) : Bytes := (h.filterMap write?).flatMap taken

@[simp] theorem accepted_append (h h' : List Happening) :
    accepted (h ++ h') = accepted h ++ accepted h' := by
  simp [accepted]

theorem accepted_write (fd : Fd) (data : Bytes) (n : Nat) :
    accepted [called ⟨.write fd data, .ok n⟩] = data.take n := by
  simp [accepted, write?, taken]

theorem accepted_one {h : List Happening} {fd : Fd} {data : Bytes} {n : Nat}
    (hh : h.filterMap write? = [(fd, data, .ok n)]) : accepted h = data.take n := by
  simp [accepted, hh, taken]

end Happening

def Call.WritesNothing : Call → Prop
  | .write .. => False
  | _ => True

namespace Program

variable {α : Type} {P : Call → Prop} {p : Program α} {h : List Happening} {a : α}

theorem Makes.called (hp : p.Makes P) (hdoes : p.Does h a) {c : Call} {r : c.Answer}
    (hc : .called ⟨c, r⟩ ∈ h) : P c := by
  induction hdoes with
  | done a => cases hc
  | note _ ih => exact ih hp ((List.mem_cons.mp hc).resolve_left nofun)
  | call a _ ih =>
    obtain heq | hc := List.mem_cons.mp hc
    · cases heq
      exact hp.1
    · exact ih (hp.2 a) hc

theorem Makes.writes (hp : p.Makes Call.WritesNothing) (hdoes : p.Does h a) :
    h.filterMap Happening.write? = [] := by
  apply List.filterMap_eq_nil_iff.mpr
  intro x hx
  cases x with
  | logged e => rfl
  | called x =>
    obtain ⟨c, r⟩ := x
    have hc := hp.called hdoes hx
    cases c <;> first | exact hc.elim | rfl

end Program

namespace Descriptor

variable {d : Descriptor} {data : Bytes} {h : List Happening}

theorem write_run (fd : Fd) (name : String) (data : Bytes) :
    (write ⟨some fd, name⟩ data).run =
      .call (.write fd data) fun a => .done (a.mapError (.writeFailed name)) :=
  congrArg (Program.call (.write fd data)) (funext fun a => by cases a <;> rfl)

theorem write_does {fd : Fd} {name : String} {r : Except Failure Nat} :
    (write ⟨some fd, name⟩ data).run.Does h r ↔
      ∃ a, h = [.called ⟨.write fd data, a⟩] ∧ r = a.mapError (.writeFailed name) := by
  simp [write_run]

theorem write_does_ok {n : Nat} : (d.write data).run.Does h (.ok n) ↔
    ∃ fd, d.fd = some fd ∧ h = [.called ⟨.write fd data, .ok n⟩] := by
  obtain ⟨fd, name⟩ := d
  cases fd with
  | none => simp [write]
  | some fd =>
    rw [write_does]
    constructor
    · rintro ⟨a, rfl, ha⟩
      cases a <;> cases ha
      exact ⟨fd, rfl, rfl⟩
    · rintro ⟨_, heq, rfl⟩
      cases heq
      exact ⟨.ok n, rfl, rfl⟩

theorem write_does_error {f : Failure} (hdoes : (d.write data).run.Does h (.error f)) :
    Happening.accepted h = [] := by
  obtain ⟨fd, name⟩ := d
  cases fd with
  | none =>
    obtain ⟨rfl, -⟩ := Program.does_done.mp hdoes
    rfl
  | some fd =>
    obtain ⟨a, rfl, ha⟩ := write_does.mp hdoes
    cases a <;> cases ha
    rfl

theorem writeAll_does {rounds : Nat} (hdoes : (d.writeAll rounds data).run.Does h (.ok ())) :
    Happening.accepted h = data := by
  induction rounds generalizing data h with
  | zero =>
    cases data with
    | nil =>
      obtain ⟨rfl, -⟩ := Program.does_done.mp hdoes
      rfl
    | cons b bs => exact (Program.does_unfinished hdoes).elim
  | succ rounds ih =>
    cases data with
    | nil =>
      obtain ⟨rfl, -⟩ := Program.does_done.mp hdoes
      rfl
    | cons b bs =>
      obtain ⟨r, first, rest, rfl, hwrite, hrest⟩ := Action.does_bind_ok.mp hdoes
      have hwrite : (d.write (b :: bs)).run.Does first r := Action.does_lift.mp hwrite
      rw [Happening.accepted_append]
      split at hrest
      · cases (Program.does_done.mp hrest).2
      · rename_i n
        obtain ⟨fd, -, rfl⟩ := write_does_ok.mp hwrite
        rw [ih hrest, Happening.accepted_write]
        simp
      · rw [write_does_error hwrite, ih hrest]
        rfl
      · cases (Program.does_done.mp hrest).2

theorem finish_makes {P : Call → Prop} (hclose : ∀ fd, P (.close fd)) (d : Descriptor) :
    d.finish.run.Makes P :=
  Action.makes_bind (Action.makes_lift (d.close_makes hclose)) fun r => Action.makes_ofExcept r.1

theorem openFile_opens (file : File) (flags : OpenFlags) (perm : Mode) (fd : Fd) :
    ∃ h, (openFile file flags perm).run.Does h (.ok (owning fd file.name)) := by
  refine Program.exists_does_call (c := .probe file.path) (some FileKind.regular) ?_
  refine Program.exists_does_call (c := .openFile file.path flags perm) (Except.ok fd) ?_
  exact ⟨_, .note (.note (.done _))⟩

theorem finish_closes (fd : Fd) (name : String) :
    ∃ h, (owning fd name).finish.run.Does h (.ok ()) :=
  Program.exists_does_call (c := .close fd) (Except.ok ()) ⟨_, .note (.done _)⟩

end Descriptor

namespace FifoConnection

variable {c : FifoConnection} {m : Bytes} {h : List Happening}

theorem checkLength_does {u : Unit} : (checkLength m).run.Does h (.ok u) ↔
    (0 < m.length ∧ m.length < Limits.fifoMessage) ∧ h = [] := by
  unfold checkLength
  split
  · rename_i hm
    constructor
    · intro hdoes
      cases (Program.does_done.mp hdoes).2
    · omega
  · rename_i hm
    have hvalid : 0 < m.length ∧ m.length < Limits.fifoMessage := by omega
    rw [and_iff_right hvalid]
    exact ⟨fun hdoes => (Program.does_done.mp hdoes).1, fun h => h ▸ .done _⟩

theorem held_does {d : Descriptor} :
    c.held.run.Does h (.ok d) ↔ c.descriptor = some d ∧ h = [] := by
  unfold held
  cases c.descriptor with
  | none =>
    constructor
    · intro hdoes
      cases (Program.does_done.mp hdoes).2
    · rintro ⟨⟨⟩, -⟩
  | some d' =>
    constructor
    · intro hdoes
      obtain ⟨rfl, heq⟩ := Program.does_done.mp hdoes
      cases heq
      exact ⟨rfl, rfl⟩
    · rintro ⟨⟨⟩, rfl⟩
      exact .done _

theorem send_does : (c.send m).run.Does h (.ok ()) ↔
    (0 < m.length ∧ m.length < Limits.fifoMessage) ∧ ∃ d fd n, c.descriptor = some d ∧
      d.fd = some fd ∧ h = [.called ⟨.write fd m, .ok n⟩] := by
  unfold send
  simp only [Action.does_bind_ok, checkLength_does, held_does, Descriptor.write_does_ok]
  constructor
  · rintro ⟨_, _, _, rfl, ⟨hm, rfl⟩, d, _, _, rfl, ⟨hd, rfl⟩, n, _, _, rfl, ⟨fd, hfd, rfl⟩, hdone⟩
    obtain ⟨rfl, -⟩ := Program.does_done.mp hdone
    exact ⟨hm, d, fd, n, hd, hfd, rfl⟩
  · rintro ⟨hm, d, fd, n, hd, hfd, rfl⟩
    exact ⟨(), [], _, rfl, ⟨hm, rfl⟩, d, [], _, rfl, ⟨hd, rfl⟩, n, _, [], rfl, ⟨fd, hfd, rfl⟩,
      .done _⟩

theorem sendMessage_does : (c.sendMessage m).run.Does h (.ok ()) ↔
    (0 < m.length ∧ m.length < Limits.fifoMessage) ∧ ∃ warned opened finished d fd n,
      h = warned ++ (opened ++ (.called ⟨.write fd m, .ok n⟩ :: finished)) ∧
      c.warnUnlessFifo.run.Does warned (.ok ()) ∧
      (Descriptor.openFile c.file .writeOnly 0#12).run.Does opened (.ok d) ∧ d.fd = some fd ∧
      d.finish.run.Does finished (.ok ()) := by
  unfold sendMessage
  simp only [Action.does_bind_ok, checkLength_does, Action.does_onLeave_ok,
    Descriptor.write_does_ok]
  constructor
  · rintro ⟨_, warned, _, rfl, hwarned, _, _, _, rfl, ⟨hm, rfl⟩, d, opened, _, rfl, hopened, n, _,
      finished, rfl, ⟨fd, hfd, rfl⟩, hfinished⟩
    exact ⟨hm, warned, opened, finished, d, fd, n, rfl, hwarned, hopened, hfd, hfinished⟩
  · rintro ⟨hm, warned, opened, finished, d, fd, n, rfl, hwarned, hopened, hfd, hfinished⟩
    exact ⟨(), warned, _, rfl, hwarned, (), [], _, rfl, ⟨hm, rfl⟩, d, opened, _, rfl, hopened, n, _,
      finished, rfl, ⟨fd, hfd, rfl⟩, hfinished⟩

theorem sendMessage_writes {warned opened finished : List Happening} {d : Descriptor} {fd : Fd}
    {n : Nat} (hwarned : c.warnUnlessFifo.run.Does warned (.ok ()))
    (hopened : (Descriptor.openFile c.file .writeOnly 0#12).run.Does opened (.ok d))
    (hfinished : d.finish.run.Does finished (.ok ())) :
    (warned ++ (opened ++ (.called ⟨.write fd m, .ok n⟩ :: finished))).filterMap
      Happening.write? = [(fd, m, .ok n)] := by
  have hwarned := (c.warnUnlessFifo_makes fun _ => trivial).writes hwarned
  have hopened := (Descriptor.openFile_makes trivial trivial (fun _ => trivial)
    fun _ => trivial).writes hopened
  have hfinished := (d.finish_makes fun _ => trivial).writes hfinished
  simp only [List.filterMap_append, List.filterMap_cons, hwarned, hopened, hfinished]
  rfl

theorem sendMessage_of_count (c : FifoConnection)
    (hm : 0 < m.length ∧ m.length < Limits.fifoMessage) (fd : Fd) (n : Nat) :
    ∃ h, (c.sendMessage m).run.Does h (.ok ()) ∧
      h.filterMap Happening.write? = [(fd, m, .ok n)] := by
  obtain ⟨warned, hwarned⟩ : ∃ h, c.warnUnlessFifo.run.Does h (.ok ()) :=
    Program.exists_does_call (c := .probe c.file.path) (some FileKind.fifo) ⟨_, .done _⟩
  obtain ⟨opened, hopened⟩ := Descriptor.openFile_opens c.file OpenFlags.writeOnly 0#12 fd
  obtain ⟨finished, hfinished⟩ := Descriptor.finish_closes fd c.file.name
  exact ⟨_, sendMessage_does.mpr
    ⟨hm, warned, opened, finished, _, fd, n, rfl, hwarned, hopened, rfl, hfinished⟩,
    sendMessage_writes hwarned hopened hfinished⟩

inductive Sending
  | held
  | apart
  deriving DecidableEq, Repr

def sending (c : FifoConnection) (m : Bytes) : Sending → Action Unit
  | .held => c.send m
  | .apart => c.sendMessage m

def CanSend (c : FifoConnection) : Sending → Prop
  | .held => ∃ fd name, c.descriptor = some ⟨some fd, name⟩
  | .apart => True

theorem sending_does {how : Sending} (hdoes : (c.sending m how).run.Does h (.ok ())) :
    (0 < m.length ∧ m.length < Limits.fifoMessage) ∧
      ∃ fd n, h.filterMap Happening.write? = [(fd, m, .ok n)] := by
  cases how with
  | held =>
    obtain ⟨hm, _, fd, n, -, -, rfl⟩ := send_does.mp hdoes
    exact ⟨hm, fd, n, rfl⟩
  | apart =>
    obtain ⟨hm, _, _, _, _, fd, n, rfl, hwarned, hopened, -, hfinished⟩ :=
      sendMessage_does.mp hdoes
    exact ⟨hm, fd, n, sendMessage_writes hwarned hopened hfinished⟩

theorem sending_of_count {how : Sending} (hm : 0 < m.length ∧ m.length < Limits.fifoMessage)
    (hcan : c.CanSend how) (n : Nat) : ∃ h fd, (c.sending m how).run.Does h (.ok ()) ∧
      h.filterMap Happening.write? = [(fd, m, .ok n)] := by
  cases how with
  | held =>
    obtain ⟨fd, name, hd⟩ := hcan
    exact ⟨_, fd, send_does.mpr ⟨hm, ⟨some fd, name⟩, fd, n, hd, rfl, rfl⟩, rfl⟩
  | apart =>
    obtain ⟨h, hdoes, hwrites⟩ := sendMessage_of_count c hm 0 n
    exact ⟨h, 0, hdoes, hwrites⟩

/-- A send that succeeds has made one write of the message, and has handed over as many bytes of it
as the write took. Every count may be that of a send that succeeds. Writing all of the bytes, which
goes on after a count, succeeds with all of them only. -/
theorem sends_write_once (c : FifoConnection) (m : Bytes) (how : Sending) :
    (∀ h, (c.sending m how).run.Does h (.ok ()) → (∀ x ∈ h, x.Legal) →
      (0 < m.length ∧ m.length < Limits.fifoMessage) ∧ ∃ fd n, n ≤ m.length ∧
        h.filterMap Happening.write? = [(fd, m, .ok n)] ∧ Happening.accepted h = m.take n ∧
        (Happening.accepted h = m ↔ n = m.length)) ∧
    (0 < m.length ∧ m.length < Limits.fifoMessage → c.CanSend how → ∀ n ≤ m.length, ∃ h,
      (c.sending m how).run.Does h (.ok ()) ∧ (∀ x ∈ h, x.Legal) ∧
        Happening.accepted h = m.take n) ∧
    ∀ (d : Descriptor) rounds h, (d.writeAll rounds m).run.Does h (.ok ()) →
      Happening.accepted h = m := by
  refine ⟨fun h hdoes hlegal => ?_, fun hm hcan n hn => ?_, fun d rounds h => d.writeAll_does⟩
  · obtain ⟨hm, fd, n, hwrites⟩ := sending_does hdoes
    have hn : n ≤ m.length := by
      have hmem : (fd, m, Except.ok n) ∈ h.filterMap Happening.write? := by simp [hwrites]
      obtain ⟨x, hx, hwrite⟩ := List.mem_filterMap.mp hmem
      exact hlegal x hx fd m n hwrite
    have haccepted := Happening.accepted_one hwrites
    refine ⟨hm, fd, n, hn, hwrites, haccepted, ?_⟩
    rw [haccepted, List.take_eq_self_iff]
    omega
  · obtain ⟨h, fd, hdoes, hwrites⟩ := sending_of_count hm hcan n
    refine ⟨h, hdoes, fun x hx fd' data k hwrite => ?_, Happening.accepted_one hwrites⟩
    have hmem : (fd', data, Except.ok k) ∈ h.filterMap Happening.write? :=
      List.mem_filterMap.mpr ⟨x, hx, hwrite⟩
    rw [hwrites, List.mem_singleton] at hmem
    cases hmem
    exact hn

open Kernel (State) in
def narrow : State where
  inodes := #[⟨.directory 0 [([97], 1)], 0o755, 0⟩, ⟨.ownAdjustment, 0o644, 0⟩]
  openFiles := #[⟨1, OpenFlags.writeOnly, 0⟩]
  processes := [{ pid := 1, parent := 0, handles := [(0, ⟨0, false⟩)] }]

def narrowConnection : FifoConnection := ⟨⟨[97]⟩, some (.owning 0 "a"), true⟩

def thirteen : Bytes := [48, 48, 48, 48, 48, 48, 48, 48, 49, 55, 53, 48, 120]

/-- Twelve bytes of the thirteen are taken, and the send succeeds, over the held descriptor as over
one of its own. -/
theorem sends_leave_byte_out : thirteen.take 12 ≠ thirteen ∧
    (∃ as t, (World.kernel 1).Allows narrow as t ∧
      ((narrowConnection.send thirteen).run.follow as).bind Program.result? = some (.ok ()) ∧
      Happening.accepted (as.map .called) = thirteen.take 12) ∧
    ∃ as t, (World.kernel 1).Allows narrow as t ∧
      ((narrowConnection.sendMessage thirteen).run.follow as).bind Program.result? =
        some (.ok ()) ∧
      Happening.accepted (as.map .called) = thirteen.take 12 := by
  have hheld : ∃ t, (World.kernel 1).Allows narrow [⟨.write 0 thirteen, .ok 12⟩] t :=
    ⟨_, .answer (.inl (by cbv)) (.nil _)⟩
  have hapart : ∃ t, (World.kernel 1).Allows narrow
      [⟨.probe [97], some .regular⟩, ⟨.probe [97], some .regular⟩,
        ⟨.openFile [97] .writeOnly 0, .ok 1⟩, ⟨.write 1 thirteen, .ok 12⟩, ⟨.close 1, .ok ()⟩] t :=
    ⟨_, .answer (.inl (by cbv)) (.answer (.inl (by cbv)) (.answer (.inl (by cbv))
      (.answer (.inl (by cbv)) (.answer (.inl (by cbv)) (.nil _)))))⟩
  obtain ⟨t, hheld⟩ := hheld
  obtain ⟨u, hapart⟩ := hapart
  exact ⟨by decide, ⟨_, t, hheld, by decide +kernel, by decide +kernel⟩,
    _, u, hapart, by decide +kernel, by decide +kernel⟩

end FifoConnection

end OwnedHandles
