import OwnedHandles.Proofs.Channel
import OwnedHandles.Proofs.Endings
import OwnedHandles.Proofs.Leaks
import OwnedHandles.Proofs.ShortWrites

namespace OwnedHandles

namespace Program

variable {α β : Type} {p : Program α} {failed : α → Bool} {fin : Program Unit} {loops : Prop}

/-- No assertion of the program breaks, whatever the answers are, and it comes to an end unless it
may loop. -/
def Sound (loops : Prop) : Program α → Prop
  | .done _ => True
  | .abort _ => False
  | .unfinished => loops
  | .note _ p => p.Sound loops
  | .call _ next => ∀ a, (next a).Sound loops

theorem Sound.bind {f : α → Program β} (hp : p.Sound loops) (hf : ∀ a, (f a).Sound loops) :
    (p.bind f).Sound loops := by
  induction p with
  | done a => exact hf a
  | abort m => exact hp.elim
  | unfinished => exact hp
  | note e p ih => exact ih hp
  | call c next ih => exact fun a => ih a (hp a)

theorem Sound.leaving (hp : p.Sound loops) (hfin : fin.Sound loops) :
    (leaving failed fin p).Sound loops := by
  induction p with
  | done a =>
    unfold Program.leaving
    split
    · exact hfin.bind fun _ => trivial
    · trivial
  | abort m => exact hp.elim
  | unfinished => exact hp
  | note e p ih => exact ih hp
  | call c next ih => exact fun a => ih a (hp a)

theorem Sound.caught_eq (hp : p.Sound loops) : p.caught = p.bind fun a => .done (.ok a) := by
  induction p with
  | done a => rfl
  | abort m => exact hp.elim
  | unfinished => rfl
  | note e p ih => exact congrArg (note e) (ih hp)
  | call c next ih => exact congrArg (call c) (funext fun a => ih a (hp a))

theorem Sound.finishes (hp : p.Sound False) : p.Finishes := by
  induction p with
  | done a => trivial
  | abort m => exact hp
  | unfinished => exact hp
  | note e p ih => exact ih hp
  | call c next ih => exact fun a => ih a (hp a)

theorem endsIn_of_does {R : α → Prop} (h : ∀ hs a, p.Does hs a → R a) : p.EndsIn R := by
  induction p with
  | done a => exact h [] a (.done a)
  | abort m => trivial
  | unfinished => trivial
  | note e p ih => exact ih fun hs a hdoes => h _ a (.note hdoes)
  | call c next ih => exact fun r => ih r fun hs a hdoes => h _ a (.call r hdoes)

end Program

namespace Action

variable {α β : Type} {p : Action α} {loops : Prop}

theorem sound_bind {f : α → Action β} (hp : p.run.Sound loops) (hf : ∀ a, (f a).run.Sound loops) :
    (p >>= f).run.Sound loops := by
  rw [run_bind]
  apply hp.bind
  intro r
  cases r with
  | ok a => exact hf a
  | error f => trivial

theorem sound_lift {q : Program α} (hq : q.Sound loops) :
    (ExceptT.lift q : Action α).run.Sound loops :=
  hq.bind fun _ => trivial

theorem sound_ofExcept (r : Except Failure α) :
    (MonadExcept.ofExcept r : Action α).run.Sound loops := by
  rw [run_ofExcept]
  trivial

theorem sound_orFail (asFailure : Errno → Failure) (r : Except Errno α) :
    (orFail asFailure r).run.Sound loops := by
  rw [run_orFail]
  trivial

end Action

namespace Descriptor

variable {loops : Prop}

theorem close_sound (d : Descriptor) : d.close.Sound loops := by
  unfold close
  cases d.fd with
  | none => trivial
  | some fd =>
    intro a
    cases a <;> trivial

theorem drop_sound (d : Descriptor) : d.drop.Sound loops := by
  unfold drop
  split
  · apply d.close_sound.bind
    rintro ⟨r, d⟩
    cases r <;> trivial
  · trivial

theorem dropAll_sound (ds : List Descriptor) : (dropAll ds).Sound loops := by
  induction ds with
  | nil => trivial
  | cons d ds ih => exact d.drop_sound.bind fun _ => ih

theorem read_sound (d : Descriptor) (count : Nat) : (d.read count).run.Sound loops := by
  unfold read
  cases d.fd with
  | none => trivial
  | some fd => exact Action.sound_bind (fun _ => trivial) fun r => Action.sound_orFail _ r

theorem write_sound (d : Descriptor) (data : Bytes) : (d.write data).run.Sound loops := by
  unfold write
  cases d.fd with
  | none => trivial
  | some fd => exact Action.sound_bind (fun _ => trivial) fun r => Action.sound_orFail _ r

theorem finish_sound (d : Descriptor) : d.finish.run.Sound loops :=
  Action.sound_bind (Action.sound_lift d.close_sound) fun r => Action.sound_ofExcept r.1

theorem setExactMode_sound (d : Descriptor) (fd : Fd) (perm : Mode) :
    (d.setExactMode fd perm).run.Sound loops := by
  refine Action.sound_bind (fun _ => trivial) fun r => ?_
  cases r with
  | ok _ => trivial
  | error e => exact Action.sound_bind (Action.sound_lift d.drop_sound) fun _ => trivial

theorem openFile_sound (file : File) (flags : OpenFlags) (perm : Mode) :
    (openFile file flags perm).run.Sound loops := by
  refine Action.sound_bind (fun _ => trivial) fun kind => ?_
  refine Action.sound_bind (fun _ => trivial) fun r => ?_
  cases r with
  | error e => trivial
  | ok fd =>
    refine Action.sound_bind trivial fun _ => ?_
    split
    · exact Action.sound_bind (setExactMode_sound _ _ _) fun _ => trivial
    · trivial

end Descriptor

namespace FifoConnection

variable {c c' : FifoConnection} {loops : Prop}

theorem warnUnlessFifo_sound (c : FifoConnection) : c.warnUnlessFifo.run.Sound loops := by
  refine Action.sound_bind (Action.sound_lift fun kind => ?_) fun b => ?_
  · cases kind with
    | none => trivial
    | some kind => cases kind <;> trivial
  · cases b <;> trivial

theorem checkLength_sound (m : Bytes) : (checkLength m).run.Sound loops := by
  unfold checkLength
  split <;> trivial

theorem held_sound (c : FifoConnection) : c.held.run.Sound loops := by
  unfold held
  cases c.descriptor <;> trivial

theorem readMessageFrom_sound (hloops : loops) (d : Descriptor) (acceptEnd : Bool)
    (rounds : Nat) : (readMessageFrom d acceptEnd rounds).run.Sound loops := by
  induction rounds with
  | zero => exact hloops
  | succ rounds ih =>
    refine Action.sound_bind (d.read_sound _) fun data => ?_
    cases data with
    | nil =>
      cases acceptEnd with
      | true => trivial
      | false => exact Action.sound_bind (fun _ => trivial) fun _ => ih
    | cons b bs => trivial

inductive Operation
  | make (perm : Mode)
  | openFile (direction : Direction) (block : Bool)
  | send (message : Bytes)
  | read (rounds : Nat)
  | sendMessage (message : Bytes)
  | readMessage (rounds : Nat)
  | close
  deriving DecidableEq, Repr

namespace Operation

def opens : Operation → Bool
  | openFile .. => true
  | _ => false

def polls : Operation → Bool
  | read _ | readMessage _ => true
  | _ => false

def overHeld : Operation → Bool
  | send _ | read _ => true
  | _ => false

end Operation

inductive Ending
  | returned (r : Except Failure (Option String))
  | panicked (message : String)
  deriving DecidableEq, Repr

def step (c : FifoConnection) :
    Operation → Program (Except Failure (Option String) × FifoConnection)
  | .make perm => do return ((← (c.file.makeFifo perm).attempt).map fun _ => none, c)
  | .openFile direction block => do
    match ← (c.openFile direction block).attempt with
    | .ok opened => return (.ok none, opened)
    | .error f => return (.error f, c)
  | .send m => do return ((← (c.send m).attempt).map fun _ => none, c)
  | .read rounds => do return ((← (c.read rounds).attempt).map some, c)
  | .sendMessage m => do return ((← (c.sendMessage m).attempt).map fun _ => none, c)
  | .readMessage rounds => do return ((← (c.readMessage rounds).attempt).map some, c)
  | .close => do
    let (r, closed) ← c.close
    return (r.map fun _ => none, closed)

/-- The operation on this connection, where a broken assertion is one of the endings. The connection
can be used on. -/
def perform (c : FifoConnection) (o : Operation) : Program (Ending × FifoConnection) := do
  match ← (c.step o).caught with
  | .ok (r, left) => return (.returned r, left)
  | .error m => return (.panicked m, c)

theorem openFile_run_of_held {d : Descriptor} (hd : c.descriptor = some d) (direction : Direction)
    (block : Bool) : (c.openFile direction block).run =
      .abort ("FIFO " ++ c.file.name ++ " is already open") := by
  unfold openFile
  simp [hd]

theorem openFile_run_of_none (hd : c.descriptor = none) (direction : Direction) (block : Bool) :
    c.openFile direction block = do
      let d ← Descriptor.openFile c.file
        (if block then direction.flags else direction.flags ||| OpenFlags.nonblock) 0#12
      return { c with descriptor := some d, blocking := block } := by
  unfold openFile
  simp [hd]

theorem close_sound (c : FifoConnection) : c.close.Sound loops := by
  unfold close
  cases c.descriptor with
  | none => trivial
  | some d => exact d.close_sound.bind fun _ => trivial

theorem step_sound {o : Operation} (h : o.opens = true → c.descriptor = none)
    (hloops : o.polls = true → loops) : (c.step o).Sound loops := by
  cases o with
  | make perm =>
    have hmake : (c.file.makeFifo perm).run.Sound loops :=
      Action.sound_bind (fun _ => trivial) fun r => Action.sound_orFail _ r
    exact hmake.bind fun _ => trivial
  | openFile direction block =>
    have hopen : (c.openFile direction block).run.Sound loops := by
      rw [openFile_run_of_none (h rfl)]
      exact Action.sound_bind (Descriptor.openFile_sound _ _ _) fun _ => trivial
    refine hopen.bind fun r => ?_
    cases r <;> trivial
  | send m =>
    have hsend : (c.send m).run.Sound loops :=
      Action.sound_bind (checkLength_sound m) fun _ => Action.sound_bind c.held_sound fun d =>
        Action.sound_bind (d.write_sound m) fun _ => trivial
    exact hsend.bind fun _ => trivial
  | read rounds =>
    have hread : (c.read rounds).run.Sound loops :=
      Action.sound_bind c.held_sound fun d => readMessageFrom_sound (hloops rfl) d _ rounds
    exact hread.bind fun _ => trivial
  | sendMessage m =>
    have hsend : (c.sendMessage m).run.Sound loops :=
      Action.sound_bind c.warnUnlessFifo_sound fun _ =>
        Action.sound_bind (checkLength_sound m) fun _ =>
        Action.sound_bind (Descriptor.openFile_sound _ _ _) fun d =>
        Action.sound_bind ((d.write_sound m).leaving (Descriptor.dropAll_sound _)) fun _ =>
        d.finish_sound
    exact hsend.bind fun _ => trivial
  | readMessage rounds =>
    have hread : (c.readMessage rounds).run.Sound loops :=
      Action.sound_bind c.warnUnlessFifo_sound fun _ =>
        Action.sound_bind (Descriptor.openFile_sound _ _ _) fun d =>
        Action.sound_bind ((readMessageFrom_sound (hloops rfl) d _ rounds).leaving
          (Descriptor.dropAll_sound _)) fun _ =>
        Action.sound_bind d.finish_sound fun _ => trivial
    exact hread.bind fun _ => trivial
  | close => exact c.close_sound.bind fun _ => trivial

theorem perform_of_twice {o : Operation} (ho : o.opens = true) (hc : c.descriptor.isSome = true) :
    c.perform o = .done (.panicked ("FIFO " ++ c.file.name ++ " is already open"), c) := by
  obtain ⟨d, hd⟩ := Option.isSome_iff_exists.mp hc
  cases o with
  | openFile direction block =>
    unfold perform step
    simp [openFile_run_of_held hd, Program.caught]
  | _ => cases ho

theorem perform_of_once {o : Operation} (h : o.opens = true → c.descriptor = none) :
    c.perform o = (c.step o).bind fun x => .done (.returned x.1, x.2) := by
  have hsound : (c.step o).Sound True := step_sound h fun _ => trivial
  unfold perform
  rw [hsound.caught_eq, Program.bind_eq, Program.bind_assoc]
  rfl

theorem perform_close_of_none (hc : c.descriptor = none) :
    c.perform .close = .done (.returned (.ok none), c) := by
  unfold perform step close
  simp [hc, Program.caught, Except.map]

theorem perform_finishes (c : FifoConnection) {o : Operation} (hpolls : o.polls = false) :
    (c.perform o).Finishes := by
  by_cases h : o.opens = true ∧ c.descriptor.isSome = true
  · rw [perform_of_twice h.1 h.2]
    trivial
  · have honce : o.opens = true → c.descriptor = none := fun ho => by simpa [ho] using h
    rw [perform_of_once honce]
    apply Program.Sound.finishes
    exact (step_sound honce fun h => by simp [hpolls] at h).bind fun _ => trivial

structure Keeps (c : FifoConnection) (o : Operation) (e : Ending) (c' : FifoConnection) : Prop where
  panicked_iff : ∀ m, e = .panicked m ↔
    o.opens = true ∧ c.descriptor.isSome = true ∧ m = "FIFO " ++ c.file.name ++ " is already open"
  opened : ∀ direction block v, o = .openFile direction block → e = .returned (.ok v) →
    c.descriptor = none ∧ ∃ fd,
      c' = { c with descriptor := some (.owning fd c.file.name), blocking := block }
  unopened : ∀ direction block, o = .openFile direction block → (∀ v, e ≠ .returned (.ok v)) →
    c' = c
  closed : o = .close → c' = { c with descriptor := none } ∧
    (c.descriptor = none → e = .returned (.ok none))
  over_held : ∀ v, o.overHeld = true → e = .returned (.ok v) → c.descriptor.isSome = true
  invalid : ∀ m, o = .send m → ¬(0 < m.length ∧ m.length < Limits.fifoMessage) →
    e = .returned (.error (.invalidMessage m.length Limits.fifoMessage))
  unchanged : o.opens = false → o ≠ .close → c' = c

theorem Keeps.of_unchanged {o : Operation} {r : Except Failure (Option String)}
    (hopens : o.opens = false) (hclose : o ≠ .close)
    (hheld : ∀ v, o.overHeld = true → r = .ok v → c.descriptor.isSome = true)
    (hinvalid : ∀ m, o = .send m → ¬(0 < m.length ∧ m.length < Limits.fifoMessage) →
      r = .error (.invalidMessage m.length Limits.fifoMessage)) : Keeps c o (.returned r) c where
  panicked_iff m := by simp [hopens]
  opened direction block v ho := by simp [ho, Operation.opens] at hopens
  unopened _ _ _ _ := rfl
  closed ho := (hclose ho).elim
  over_held v ho hr := hheld v ho (Ending.returned.inj hr)
  invalid m ho hm := congrArg Ending.returned (hinvalid m ho hm)
  unchanged _ _ := rfl

section Performed

variable {h : List Happening} {r : Except Failure (Option String)}

theorem openFile_keeps {direction : Direction} {block : Bool} (hc : c.descriptor = none)
    (hdoes : (c.step (.openFile direction block)).Does h (r, c')) :
    Keeps c (.openFile direction block) (.returned r) c' := by
  obtain ⟨result, first, _, rfl, hopened, hdone⟩ := Program.does_bind.mp hdoes
  cases result with
  | error f =>
    obtain ⟨rfl, heq⟩ := Program.does_done.mp hdone
    cases heq
    exact ⟨by simp [hc], nofun, fun _ _ _ _ => rfl, nofun, nofun, nofun, fun _ _ => rfl⟩
  | ok c'' =>
    obtain ⟨rfl, heq⟩ := Program.does_done.mp hdone
    cases heq
    rw [Action.attempt_eq, openFile_run_of_none hc] at hopened
    obtain ⟨d, _, _, -, hopen, hset⟩ := Action.does_bind_ok.mp hopened
    obtain ⟨fd, -, rfl, -⟩ := Descriptor.openFile_does hopen
    have hset : c' = { c with
        descriptor := some (.owning fd c.file.name), blocking := block } :=
      Except.ok.inj (Program.does_done.mp hset).2
    refine ⟨by simp [hc], fun _ _ _ ho _ => ?_, fun _ _ _ hne => (hne none rfl).elim, nofun, nofun,
      nofun, nofun⟩
    cases ho
    exact ⟨hc, fd, hset⟩

theorem close_keeps (hdoes : (c.step .close).Does h (r, c')) :
    Keeps c .close (.returned r) c' := by
  have hclosed : c' = { c with descriptor := none } ∧ (c.descriptor = none → r = .ok none) := by
    obtain ⟨result, _, _, rfl, hclose, hdone⟩ := Program.does_bind.mp hdoes
    obtain ⟨rfl, heq⟩ := Program.does_done.mp hdone
    cases heq
    unfold close at hclose
    cases hc : c.descriptor with
    | none =>
      rw [hc] at hclose
      obtain ⟨-, rfl⟩ := Program.does_done.mp hclose
      exact ⟨by rw [← hc], fun _ => rfl⟩
    | some d =>
      rw [hc] at hclose
      obtain ⟨_, _, _, -, -, hdone⟩ := Program.does_bind.mp hclose
      obtain ⟨-, rfl⟩ := Program.does_done.mp hdone
      exact ⟨rfl, nofun⟩
  exact ⟨by simp [Operation.opens], nofun, nofun,
    fun _ => ⟨hclosed.1, fun hc => congrArg Ending.returned (hclosed.2 hc)⟩, nofun, nofun,
    fun _ h => (h rfl).elim⟩

theorem attempt_keeps {α : Type} {p : Action α}
    {f : Except Failure α → Except Failure (Option String)} {o : Operation}
    (hopens : o.opens = false) (hclose : o ≠ .close) (hheld : o.overHeld = false)
    (hsend : ∀ m, o ≠ .send m) (hdoes : (p.attempt.bind fun r => .done (f r, c)).Does h (r, c')) :
    Keeps c o (.returned r) c' := by
  obtain ⟨_, -, heq⟩ := Action.does_attempt.mp hdoes
  cases heq
  exact .of_unchanged hopens hclose (by simp [hheld]) fun m ho => (hsend m ho).elim

theorem step_keeps {o : Operation} (ho : o.opens = true → c.descriptor = none)
    (hdoes : (c.step o).Does h (r, c')) : Keeps c o (.returned r) c' := by
  cases o with
  | make perm => exact attempt_keeps rfl nofun rfl nofun hdoes
  | openFile direction block => exact openFile_keeps (ho rfl) hdoes
  | send m =>
    obtain ⟨result, hsend, heq⟩ := Action.does_attempt.mp hdoes
    cases heq
    refine .of_unchanged rfl nofun (fun v _ hv => ?_) (fun m' hm' hinvalid => ?_)
    · cases result with
      | ok _ =>
        obtain ⟨-, d, _, _, hd, -⟩ := send_does.mp hsend
        simp [hd]
      | error f => cases hv
    · cases hm'
      rw [send_run, if_pos (by unfold Limits.fifoMessage at hinvalid; omega)] at hsend
      obtain ⟨-, rfl⟩ := Program.does_done.mp hsend
      rfl
  | read rounds =>
    obtain ⟨result, hread, heq⟩ := Action.does_attempt.mp hdoes
    cases heq
    refine .of_unchanged rfl nofun (fun v _ hv => ?_) nofun
    cases result with
    | ok _ =>
      obtain ⟨d, _, _, -, hheld, -⟩ := Action.does_bind_ok.mp hread
      simp [(held_does.mp hheld).1]
    | error f => cases hv
  | sendMessage m => exact attempt_keeps rfl nofun rfl nofun hdoes
  | readMessage rounds => exact attempt_keeps rfl nofun rfl nofun hdoes
  | close => exact close_keeps hdoes

theorem perform_keeps {o : Operation} {e : Ending} (hdoes : (c.perform o).Does h (e, c')) :
    Keeps c o e c' := by
  by_cases htwice : o.opens = true ∧ c.descriptor.isSome = true
  · obtain ⟨hopens, hc⟩ := htwice
    rw [perform_of_twice hopens hc] at hdoes
    obtain ⟨-, heq⟩ := Program.does_done.mp hdoes
    cases heq
    cases o with
    | openFile direction block =>
      exact ⟨by simp [hopens, hc, eq_comm], nofun, fun _ _ _ _ => rfl, nofun, nofun, nofun,
        fun _ _ => rfl⟩
    | _ => cases hopens
  · have honce : o.opens = true → c.descriptor = none := fun ho => by simpa [ho] using htwice
    rw [perform_of_once honce] at hdoes
    obtain ⟨x, _, _, -, hstep, hdone⟩ := Program.does_bind.mp hdoes
    obtain ⟨-, heq⟩ := Program.does_done.mp hdone
    cases heq
    exact step_keeps honce hstep

end Performed

section Table

variable {s t : Finset Fd}

def owned (c : FifoConnection) : List Descriptor := c.descriptor.toList

def left {α : Type} (x : α × FifoConnection) : List Descriptor := x.2.owned

theorem attempt_passes {α : Type} {p : Action α} (hp : p.Passes c.owned (fun _ => c.owned) c.owned)
    (f : Except Failure α → Except Failure (Option String)) :
    (p.attempt.bind fun r => .done (f r, c)).Passes c.owned left c.owned := by
  apply Program.Passes.bind hp
  intro r
  cases r <;> exact Program.passes_done left (_, c)

theorem openFile_passes (hc : c.descriptor = none) (direction : Direction) (block : Bool) :
    (c.openFile direction block).Passes c.owned owned c.owned := by
  rw [openFile_run_of_none hc, owned, hc]
  exact (Descriptor.openFile_passes _ _ _).bind fun d =>
    Action.passes_pure owned { c with descriptor := some d, blocking := block }

theorem close_passes (c : FifoConnection) : c.close.Passes c.owned left c.owned := by
  unfold close
  cases hc : c.descriptor with
  | none =>
    have howned : c.owned = left ((.ok (), c) : Except Failure Unit × FifoConnection) := rfl
    rw [howned]
    exact Program.passes_done left _
  | some d =>
    rw [owned, hc]
    exact Descriptor.close_passes.bind fun x =>
      Program.passes_done left (x.1, { c with descriptor := none })

theorem held_makes {P : Call → Prop} (c : FifoConnection) : c.held.run.Makes P := by
  unfold held
  cases c.descriptor <;> trivial

theorem checkLength_makes {P : Call → Prop} (m : Bytes) : (checkLength m).run.Makes P := by
  unfold checkLength
  split <;> trivial

theorem step_passes {o : Operation} (h : o.opens = true → c.descriptor = none) :
    (c.step o).Passes c.owned left c.owned := by
  cases o with
  | make perm =>
    refine attempt_passes (Action.makes_passes ?_) _
    refine Action.makes_bind ⟨trivial, fun _ => trivial⟩ fun r => ?_
    cases r <;> trivial
  | openFile direction block =>
    apply Program.Passes.bind (openFile_passes (h rfl) direction block)
    intro r
    cases r with
    | ok opened => exact Program.passes_done left (Except.ok none, opened)
    | error f => exact Program.passes_done left (Except.error f, c)
  | send m =>
    refine attempt_passes (Action.makes_passes ?_) _
    exact Action.makes_bind (checkLength_makes m) fun _ => Action.makes_bind c.held_makes fun d =>
      Action.makes_bind (d.write_makes (fun _ _ => trivial) m) fun _ => trivial
  | read rounds =>
    refine attempt_passes (Action.makes_passes ?_) _
    exact Action.makes_bind c.held_makes fun d =>
      readMessageFrom_makes (fun _ _ => trivial) (fun _ => trivial) d _ rounds
  | sendMessage m => exact attempt_passes (c.sendMessage_passes m).frame _
  | readMessage rounds => exact attempt_passes (c.readMessage_passes rounds).frame _
  | close =>
    exact c.close_passes.bind fun x => Program.passes_done left (x.1.map fun _ => none, x.2)

theorem perform_passes (c : FifoConnection) (o : Operation) :
    (c.perform o).Passes c.owned left c.owned := by
  by_cases htwice : o.opens = true ∧ c.descriptor.isSome = true
  · rw [perform_of_twice htwice.1 htwice.2]
    exact Program.passes_done left (_, c)
  · have honce : o.opens = true → c.descriptor = none := fun ho => by simpa [ho] using htwice
    rw [perform_of_once honce]
    exact (step_passes honce).bind fun x => Program.passes_done left (Ending.returned x.1, x.2)

end Table

structure Episode where
  operation : Operation
  ending : Ending

namespace Episode

def blocking (before : Bool) : Episode → Bool
  | ⟨.openFile _ block, .returned (.ok _)⟩ => block
  | _ => before

def held (before : Bool) : Episode → Bool
  | ⟨.openFile .., .returned (.ok _)⟩ => true
  | ⟨.close, _⟩ => false
  | _ => before

end Episode

inductive Lives : FifoConnection → Finset Fd → List Episode → FifoConnection → Finset Fd → Prop
  | nil (c : FifoConnection) (t : Finset Fd) : Lives c t [] c t
  | cons {c c' c'' : FifoConnection} {t t' t'' : Finset Fd} {o : Operation} {e : Ending}
      {es : List Episode} : World.descriptors.Returns (c.perform o) t (e, c') t' →
      Lives c' t' es c'' t'' → Lives c t (⟨o, e⟩ :: es) c'' t''

theorem returns_keep {o : Operation} {e : Ending} {t t' : Finset Fd}
    (h : World.descriptors.Returns (c.perform o) t (e, c') t') : Keeps c o e c' := by
  have hends : (c.perform o).EndsIn fun x => Keeps c o x.1 x.2 :=
    Program.endsIn_of_does fun _ _ hdoes => perform_keeps hdoes
  exact hends.meets.returns h

structure Sane (file : File) (s : Finset Fd) (es : List Episode) (c : FifoConnection)
    (t : Finset Fd) : Prop where
  file : c.file = file
  holds : Holds s c.owned t
  isOpen : ∀ d, c.descriptor = some d → d.isOpen = true
  blocking : c.blocking = es.foldl Episode.blocking true
  held : c.descriptor.isSome = es.foldl Episode.held false

theorem Keeps.cases {o : Operation} {e : Ending} (h : Keeps c o e c') :
    (∃ direction block v fd, o = .openFile direction block ∧ e = .returned (.ok v) ∧
      c' = { c with descriptor := some (.owning fd c.file.name), blocking := block }) ∨
    (o = .close ∧ c' = { c with descriptor := none }) ∨
    (o ≠ .close ∧ (∀ direction block v, o = .openFile direction block → e ≠ .returned (.ok v)) ∧
      c' = c) := by
  by_cases hclose : o = .close
  · exact .inr (.inl ⟨hclose, (h.closed hclose).1⟩)
  cases hopens : o.opens with
  | false =>
    refine .inr (.inr ⟨hclose, fun direction block v ho => ?_, h.unchanged hopens hclose⟩)
    simp [ho, Operation.opens] at hopens
  | true =>
    cases o with
    | openFile direction block =>
      by_cases hok : ∃ v, e = .returned (.ok v)
      · obtain ⟨v, hv⟩ := hok
        obtain ⟨-, fd, hc'⟩ := h.opened direction block v rfl hv
        exact .inl ⟨direction, block, v, fd, rfl, hv, hc'⟩
      · have hne (v : Option String) (hv : e = .returned (.ok v)) : False := hok ⟨v, hv⟩
        exact .inr (.inr ⟨hclose, fun _ _ v _ => hne v, h.unopened direction block rfl hne⟩)
    | _ => cases hopens

theorem Episode.blocking_of_unopened {o : Operation} {e : Ending} (before : Bool)
    (h : ∀ direction block v, o = .openFile direction block → e ≠ .returned (.ok v)) :
    Episode.blocking before ⟨o, e⟩ = before := by
  unfold Episode.blocking
  split
  · rename_i heq
    cases heq
    exact (h _ _ _ rfl rfl).elim
  · rfl

theorem Episode.held_of_unopened {o : Operation} {e : Ending} (before : Bool)
    (hclose : o ≠ .close)
    (h : ∀ direction block v, o = .openFile direction block → e ≠ .returned (.ok v)) :
    Episode.held before ⟨o, e⟩ = before := by
  unfold Episode.held
  split
  · rename_i heq
    cases heq
    exact (h _ _ _ rfl rfl).elim
  · rename_i heq
    cases heq
    exact (hclose rfl).elim
  · rfl

theorem Sane.perform {file : File} {s t t' : Finset Fd} {es : List Episode} {o : Operation}
    {e : Ending} (hc : Sane file s es c t)
    (h : World.descriptors.Returns (c.perform o) t (e, c') t') :
    Sane file s (es ++ [⟨o, e⟩]) c' t' := by
  have hholds : Holds s c'.owned t' := (c.perform_passes o s t hc.holds).returns h
  obtain ⟨_, block, v, fd, rfl, rfl, rfl⟩ | ⟨rfl, rfl⟩ | ⟨hclose, hunopened, rfl⟩ :=
    (returns_keep h).cases
  · refine ⟨hc.file, hholds, fun d hd => ?_, ?_, ?_⟩
    · cases hd
      rfl
    · simp [Episode.blocking]
    · simp [Episode.held]
  · refine ⟨hc.file, hholds, nofun, ?_, ?_⟩
    · simpa [Episode.blocking] using hc.blocking
    · simp [Episode.held]
  · refine ⟨hc.file, hholds, hc.isOpen, ?_, ?_⟩
    · simpa [Episode.blocking_of_unopened _ hunopened] using hc.blocking
    · simpa [Episode.held_of_unopened _ hclose hunopened] using hc.held

theorem Lives.sane {file : File} {s t t' : Finset Fd} {before es : List Episode}
    (hc : Sane file s before c t) (h : Lives c t es c' t') : Sane file s (before ++ es) c' t' := by
  induction h generalizing before with
  | nil c t => simpa using hc
  | cons hreturns _ ih =>
    simpa using ih (hc.perform hreturns)

/-- At any point of its life a connection holds at most one descriptor, which is open and its own,
with nothing else left open. Reads wait as the last opening that succeeded has asked, and the
operation that comes next does what is said of it. -/
theorem lives_keep_state (file : File) (s : Finset Fd) :
    (∀ es c t, Lives ⟨file, none, true⟩ s es c t →
      c.file = file ∧
      (∀ d, c.descriptor = some d → ∃ fd, d.fd = some fd ∧ fd ∈ t ∧ fd ∉ s) ∧
      (∀ n, n ∈ t ↔ n ∈ s ∨ ∃ d, c.descriptor = some d ∧ d.fd = some n) ∧
      c.blocking = es.foldl Episode.blocking true ∧
      c.descriptor.isSome = es.foldl Episode.held false ∧
      ∀ o e c' t', World.descriptors.Returns (c.perform o) t (e, c') t' → Keeps c o e c') ∧
    ∀ (c : FifoConnection) o, (o.polls = false → (c.perform o).Finishes) ∧
      (o.opens = true → c.descriptor.isSome = true → c.perform o =
        .done (.panicked ("FIFO " ++ c.file.name ++ " is already open"), c)) ∧
      (c.descriptor = none → c.perform .close = .done (.returned (.ok none), c)) := by
  refine ⟨fun es c t hlives => ?_, fun c o =>
    ⟨c.perform_finishes, perform_of_twice, perform_close_of_none⟩⟩
  have hnew : Sane file s [] ⟨file, none, true⟩ s := ⟨rfl, Holds.nil.mpr rfl, nofun, rfl, rfl⟩
  have hc : Sane file s es c t := hlives.sane hnew
  have hmem (n : Fd) :
      n ∈ Descriptor.numbers c.owned ↔ ∃ d, c.descriptor = some d ∧ d.fd = some n := by
    simp [Descriptor.numbers, owned]
  refine ⟨hc.file, fun d hd => ?_, fun n => ?_, hc.blocking, hc.held, fun o e c' t' => returns_keep⟩
  · obtain ⟨fd, hfd⟩ := Option.isSome_iff_exists.mp (hc.isOpen d hd)
    have hnumber := (hmem fd).mpr ⟨d, hd, hfd⟩
    exact ⟨fd, hfd, (hc.holds.mem_iff fd).mpr (.inr hnumber), hc.holds.apart fd hnumber⟩
  · rw [hc.holds.mem_iff, hmem]

/-- Opened without waiting, opened again, closed with an error, and closed again. -/
theorem lives_keep_state_failing : ∃ es c t, Lives ⟨⟨[112]⟩, none, true⟩ {0} es c t ∧
    es.map Episode.ending = [.returned (.ok none), .panicked "FIFO p is already open",
      .returned (.error (.closeFailed "p" .EIO)), .returned (.ok none)] ∧
    c.descriptor = none ∧ c.blocking = false ∧ t = {0} := by
  let held : FifoConnection := ⟨⟨[112]⟩, some (.owning 3 "p"), false⟩
  let closed : FifoConnection := ⟨⟨[112]⟩, none, false⟩
  have hopened : World.descriptors.Allows {0} [⟨.probe [112], some .fifo⟩,
      ⟨.openFile [112] (Direction.read.flags ||| OpenFlags.nonblock) 0, .ok 3⟩] {3, 0} :=
    .answer rfl (.answer ⟨by decide, rfl⟩ (.nil _))
  have hclosed : World.descriptors.Allows {3, 0} [⟨.close 3, .error .EIO⟩] {0} :=
    .answer (by decide : ({0} : Finset Fd) = Finset.erase {3, 0} 3) (.nil _)
  have hopens : World.descriptors.Returns (perform ⟨⟨[112]⟩, none, true⟩ (.openFile .read false))
      {0} (.returned (.ok none), held) {3, 0} := hopened.returns (by decide +kernel)
  have htwice : World.descriptors.Returns (held.perform (.openFile .write true))
      {3, 0} (.panicked "FIFO p is already open", held) {3, 0} :=
    (World.Allows.nil _).returns (by decide +kernel)
  have hcloses : World.descriptors.Returns (held.perform .close)
      {3, 0} (.returned (.error (.closeFailed "p" .EIO)), closed) {0} :=
    hclosed.returns (by decide +kernel)
  have hagain : World.descriptors.Returns (closed.perform .close)
      {0} (.returned (.ok none), closed) {0} :=
    (World.Allows.nil _).returns (by decide +kernel)
  have hlives := Lives.cons hopens (.cons htwice (.cons hcloses (.cons hagain (.nil _ _))))
  obtain ⟨-, -, -, hblocking, hheld, -⟩ := (lives_keep_state ⟨[112]⟩ {0}).1 _ _ _ hlives
  have hheld : closed.descriptor.isSome = false := hheld
  exact ⟨_, _, _, hlives, rfl, Option.not_isSome_iff_eq_none.mp (by simp [hheld]), hblocking, rfl⟩

end FifoConnection

end OwnedHandles
