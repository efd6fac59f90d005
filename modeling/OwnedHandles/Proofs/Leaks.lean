import OwnedHandles.Proofs.Ownership

namespace OwnedHandles

def Action.LeavesTable {α : Type} (p : Action α) : Prop :=
  ∀ s t, (∀ r, World.descriptors.Returns p.run s r t → t = s) ∧
    ∀ m, World.descriptors.Breaks p.run s m t → t = s

theorem Action.Passes.leavesTable {α : Type} {p : Action α} (hp : p.Passes [] (fun _ => []) []) :
    p.LeavesTable := by
  intro s t
  have h := hp s s (Holds.nil.mpr rfl)
  constructor
  · intro r hr
    have := h.returns hr
    cases r <;> exact Holds.nil.mp this
  · intro m hm
    exact Holds.nil.mp (h.breaks hm)

namespace Descriptor

variable {s t : Finset Fd} {d : Descriptor} {ds lost : List Descriptor}

theorem close_passes : d.close.Passes (d :: ds) (fun _ => ds) lost := by
  intro s t h
  unfold close
  cases hd : d.fd with
  | none => exact Program.passes_done (fun _ => ds) _ s t (h.given_up hd)
  | some fd =>
    simp only [Program.bind_eq, Program.ask_bind]
    intro u hu
    rw [World.descriptors, World.others_alone] at hu
    refine ⟨hu ▸ h.takes (by simp [Call.takes, hd]), fun a v ha => ?_⟩
    obtain rfl : v = u.erase fd := ha
    subst hu
    cases a <;> exact Program.passes_done (fun _ => ds) _ s _ (h.closed hd)

theorem closeSafe_passes : d.closeSafe.Passes (d :: ds) (fun _ => ds) lost := by
  apply close_passes.bind
  intro r
  obtain ⟨r, d'⟩ := r
  cases r <;> exact Program.passes_done (fun _ => ds) d'

theorem drop_passes : d.drop.Passes (d :: ds) (fun _ => ds) lost := by
  unfold drop
  split
  · exact closeSafe_passes
  · have hd : d.fd = none := by simpa [isOpen] using ‹¬d.isOpen = true›
    exact fun s t h => Program.passes_done (fun _ => ds) d s t (h.given_up hd)

theorem dropAll_passes (es : List Descriptor) :
    (dropAll es).Passes (es ++ ds) (fun _ => ds) lost := by
  induction es with
  | nil => exact Program.passes_done (fun _ => ds) ()
  | cons e es ih => exact drop_passes.bind fun _ => ih

theorem finish_passes : d.finish.Passes (d :: ds) (fun _ => ds) ds :=
  (Action.passes_lift close_passes).bind fun r => Action.passes_ofExcept r.1

/-- A file that is opened and then refused is closed before the failure is reported. -/
theorem setExactMode_passes (fd : Fd) (perm : Mode) :
    (d.setExactMode fd perm).Passes (d :: ds) (fun _ => d :: ds) ds := by
  refine Action.Passes.bind (Action.passes_keeping trivial) fun r => ?_
  cases r with
  | ok a => exact Action.passes_pure (fun _ => d :: ds) ()
  | error e =>
    exact (Action.passes_lift drop_passes).bind fun _ => Action.passes_throw _

def opened (name : String) (ds : List Descriptor) : Except Errno Fd → List Descriptor
  | .ok fd => owning fd name :: ds
  | .error _ => ds

theorem askOpen_passes (name : String) (path : Bytes) (flags : OpenFlags) (perm : Mode) :
    (Action.ask (.openFile path flags perm)).Passes ds (opened name ds) lost := by
  apply Action.passes_ask (by simp [Call.takes])
  intro s t a u h ha
  cases a with
  | ok fd =>
    obtain ⟨hfd, rfl⟩ := ha
    exact h.opened hfd name
  | error e =>
    obtain rfl := ha
    exact h

theorem openFile_passes (file : File) (flags : OpenFlags) (perm : Mode) :
    (openFile file flags perm).Passes ds (fun d => d :: ds) ds := by
  refine Action.Passes.bind (Action.passes_keeping trivial) fun kind => ?_
  apply Action.Passes.bind (askOpen_passes file.name file.path flags perm)
  intro r
  cases r with
  | error e => exact (Action.passes_log _).bind fun _ => Action.passes_throw _
  | ok fd =>
    have hdone : (do
        Action.log ((owning fd file.name).notice fd "descriptor opened")
        return owning fd file.name : Action Descriptor).Passes
          (owning fd file.name :: ds) (fun d => d :: ds) ds :=
      (Action.passes_log _).bind fun _ => Action.passes_pure (fun d => d :: ds) _
    apply (Action.passes_log _).bind
    intro _
    split
    · exact (setExactMode_passes fd perm).bind fun _ => hdone
    · exact hdone

end Descriptor

section Launches

variable {ds lost : List Descriptor}

def PipeEnds.toList (p : PipeEnds) : List Descriptor := [p.read, p.write]

def PipeEnds.opened (stream : String) (ds : List Descriptor) :
    Except Errno (Fd × Fd) → List Descriptor
  | .ok (r, w) => Descriptor.owning r (stream ++ " pipe (read end)") ::
      Descriptor.owning w (stream ++ " pipe (write end)") :: ds
  | .error _ => ds

theorem PipeEnds.askMake_passes (stream : String) :
    (Action.ask .makePipe).Passes ds (PipeEnds.opened stream ds) lost := by
  apply Action.passes_ask (by simp [Call.takes])
  intro s t a u h ha
  cases a with
  | ok ends =>
    obtain ⟨hr, hw, hne, rfl⟩ := ha
    have hw' : ends.2 ∉ insert ends.1 t := by simp [hw, hne.symm]
    refine ((h.opened hr (stream ++ " pipe (read end)")).opened hw'
      (stream ++ " pipe (write end)")).of_numbers ?_
    simpa [opened, Descriptor.owning] using List.Perm.swap _ _ _
  | error e =>
    obtain rfl := ha
    exact h

theorem PipeEnds.openNamed_passes (stream : String) :
    (PipeEnds.openNamed stream).Passes ds (fun p => p.toList ++ ds) ds := by
  apply Action.Passes.bind (PipeEnds.askMake_passes stream)
  intro r
  apply Action.Passes.bind (Action.passes_orFail (opened stream ds) r fun _ => rfl)
  intro ends
  exact Action.passes_pure (fun p : PipeEnds => p.toList ++ ds)
    ⟨Descriptor.owning ends.1 _, Descriptor.owning ends.2 _⟩

theorem PipeEnds.drop_passes (p : PipeEnds) :
    p.drop.Passes (p.toList ++ ds) (fun _ => ds) lost :=
  Descriptor.dropAll_passes p.toList

theorem StreamEnds.drop_passes (e : StreamEnds) :
    e.drop.Passes (e.toList ++ ds) (fun _ => ds) lost :=
  Descriptor.dropAll_passes e.toList

/-- Pipes that are open already are closed when the next one can not be made. -/
theorem StreamEnds.openPipes_passes :
    StreamEnds.openPipes.Passes ds (fun ends => ends.1.toList ++ (ends.2.toList ++ ds)) ds := by
  apply (PipeEnds.openNamed_passes "stdin").bind
  intro stdin
  apply ((PipeEnds.openNamed_passes "stdout").onLeave stdin.drop_passes).bind
  intro stdout
  apply ((PipeEnds.openNamed_passes "stderr").onLeave
    (stdout.drop_passes.bind fun _ => stdin.drop_passes)).bind
  intro stderr
  apply Program.Passes.of_numbers (Action.passes_pure
    (fun ends : StreamEnds × StreamEnds => ends.1.toList ++ (ends.2.toList ++ ds)) _)
  refine List.perm_iff_count.mpr fun n => ?_
  simp only [PipeEnds.toList, StreamEnds.toList, Descriptor.numbers_cons,
    Descriptor.numbers_append, Descriptor.numbers_nil, List.count_append, List.count_nil]
  omega

theorem ChildStdio.ofDescriptors_numbers {stdin stdout stderr : Descriptor} {stdio : ChildStdio}
    (h : ofDescriptors stdin stdout stderr = .ok stdio) :
    stdio.numbers = Descriptor.numbers [stdin, stdout, stderr] := by
  unfold ofDescriptors descriptorFor at h
  obtain ⟨_ | a, _⟩ := stdin
  · cases h
  obtain ⟨_ | b, _⟩ := stdout
  · cases h
  obtain ⟨_ | c, _⟩ := stderr
  · cases h
  obtain rfl := Except.ok.inj h
  rfl

theorem LaunchPlan.fork_passes (p : LaunchPlan) (stdio : ChildStdio)
    (hstdio : ∀ fd ∈ stdio.numbers, fd ∈ Descriptor.numbers ds) (detached : Bool) :
    (p.fork stdio detached).Passes ds (fun _ => ds) ds :=
  Action.makes_passes (fork_makes (fun _ => trivial) (fun _ => trivial)
    fun _ _ h => show ∀ fd ∈ _, _ from h ▸ hstdio)

theorem Executable.plan_passes (e : Executable) (params : List Bytes) (env : Option Environment) :
    (e.plan params env).Passes ds (fun _ => ds) ds :=
  Action.passes_ofExcept _

theorem Executable.startOnPipes_passes (plan : LaunchPlan) :
    (Executable.startOnPipes plan).Passes ds (fun started => started.2.toList ++ ds) ds := by
  apply StreamEnds.openPipes_passes.bind
  intro ends
  obtain ⟨child, parent⟩ := ends
  have hleave : (parent.drop.bind fun _ => child.drop).Passes
      (child.toList ++ (parent.toList ++ ds)) (fun _ => ds) ds := by
    apply Program.Passes.of_numbers (parent.drop_passes.bind fun _ => child.drop_passes)
    simpa using List.perm_append_comm_assoc _ _ _
  refine Action.passes_settling hleave fun stdio hstdio => ?_
  have hown : ∀ fd ∈ stdio.numbers,
      fd ∈ Descriptor.numbers (child.toList ++ (parent.toList ++ ds)) := by
    rw [ChildStdio.ofDescriptors_numbers hstdio, Descriptor.numbers_append]
    exact fun fd hfd => List.mem_append_left _ hfd
  apply ((plan.fork_passes stdio hown false).onLeave hleave).bind
  intro process
  apply (Action.passes_lift child.drop_passes).bind
  intro _
  exact Action.passes_pure (fun started : ProcessHandle × StreamEnds => started.2.toList ++ ds)
    (process, parent)

theorem ProcessHandle.join_attempt_passes (p : ProcessHandle) (self : Pid) {fin : Program Unit}
    (hfin : fin.Passes ds (fun _ => lost) lost) :
    ((p.join self false).onAbort fin).attempt.Passes ds (fun _ => ds) lost := by
  have hjoin : (p.join self false).run.Passes ds (fun _ => ds) ds :=
    (p.join_makes (fun _ => trivial) self false).passes
  refine Program.Passes.leaving hjoin hfin (fun r hr => ?_) fun r _ => rfl
  simp at hr

theorem StreamEnds.closeCaptured_passes (es : List Descriptor) :
    (StreamEnds.closeCaptured es).Passes (es ++ ds) (fun _ => ds) lost := by
  induction es with
  | nil => exact Program.passes_done (fun _ => ds) ()
  | cons e es ih =>
    apply Descriptor.close_passes.bind
    intro r
    obtain ⟨r, d⟩ := r
    cases r with
    | ok a => exact ih
    | error f => exact (Program.passes_log _).bind fun _ => ih

theorem StreamEnds.drain_passes (e : StreamEnds) (rounds : Nat) :
    (e.drain rounds).Passes (e.toList ++ ds) (fun _ => ds) ds := by
  let s : StreamEnds := { e with stdin := e.stdin.closed }
  have hs : (Descriptor.numbers ([e.stdout, e.stderr] ++ ds)).Perm
      (Descriptor.numbers (s.toList ++ ds)) := .refl _
  have hread (d : Descriptor) : ((d.readToEnd rounds).onLeave s.drop).Passes
      ([e.stdout, e.stderr] ++ ds) (fun _ => [e.stdout, e.stderr] ++ ds) ds :=
    (Action.makes_passes (Descriptor.readOn_makes (fun _ _ => trivial) rounds [])).onLeave
      (s.drop_passes.of_numbers hs)
  unfold drain
  rw [Descriptor.lift_closeSafe_bind]
  apply (Action.passes_lift Descriptor.closeSafe_passes).bind
  intro _
  refine (hread e.stdout).bind fun out => (hread e.stderr).bind fun err => ?_
  apply (Action.passes_lift (StreamEnds.closeCaptured_passes [e.stdout, e.stderr])).bind
  intro _
  exact Action.passes_pure (fun _ => ds) (out, err)

end Launches

namespace Executable

theorem start_passes (e : Executable) (params : List Bytes) (env : Option Environment) :
    (e.start params env).Passes [] (fun _ => []) [] :=
  (e.plan_passes params env).bind fun plan =>
    plan.fork_passes .inherit (by simp [ChildStdio.numbers]) false

theorem startAndForget_passes (e : Executable) (params : List Bytes) :
    (e.startAndForget params).Passes [] (fun _ => []) [] :=
  (e.plan_passes params none).bind fun plan =>
    plan.fork_passes .inherit (by simp [ChildStdio.numbers]) true

theorem capture_passes (e : Executable) (self : Pid) (params : List Bytes)
    (env : Option Environment) (rounds : Nat) :
    (e.capture self params env rounds).Passes [] (fun _ => []) [] := by
  unfold capture
  apply (e.plan_passes params env).bind
  intro plan
  apply (startOnPipes_passes plan).bind
  intro started
  obtain ⟨process, parent⟩ := started
  simp only [Descriptor.lift_closeSafe_bind]
  apply (Action.passes_lift Descriptor.closeSafe_passes).bind
  intro _
  let rest : StreamEnds := { parent with stdin := parent.stdin.closed }
  refine Program.Passes.of_numbers (?_ : Program.Passes (rest.toList ++ []) _ _ _) (.refl _)
  apply Action.Passes.bind (Action.passes_lift
    (process.join_attempt_passes self rest.drop_passes))
  intro ending
  apply (rest.drain_passes rounds).bind
  intro streams
  exact Action.makes_passes (conclude_makes plan process ending streams.1 streams.2)

theorem redirect_passes (e : Executable) (params : List Bytes) (env : Option Environment)
    (input output error : File) (perm : Mode) :
    (e.redirect params env input output error perm).Passes [] (fun _ => []) [] := by
  apply (e.plan_passes params env).bind
  intro plan
  apply (Descriptor.openFile_passes input _ perm).bind
  intro stdin
  apply ((Descriptor.openFile_passes output _ perm).onLeave
    (Descriptor.dropAll_passes [stdin])).bind
  intro stdout
  apply ((Descriptor.openFile_passes error _ perm).onLeave
    (Descriptor.dropAll_passes [stdout, stdin])).bind
  intro stderr
  have hback : (Descriptor.numbers [stdin, stdout, stderr]).Perm
      (Descriptor.numbers [stderr, stdout, stdin]) :=
    (List.reverse_perm [stderr, stdout, stdin]).filterMap _
  have hleave : (Descriptor.dropAll [stderr, stdout, stdin]).Passes [stderr, stdout, stdin]
      (fun _ => []) [] := Descriptor.dropAll_passes [stderr, stdout, stdin]
  refine Action.passes_settling hleave fun stdio hstdio => ?_
  have hown : ∀ fd ∈ stdio.numbers, fd ∈ Descriptor.numbers [stderr, stdout, stdin] := by
    rw [ChildStdio.ofDescriptors_numbers hstdio]
    exact fun fd hfd => hback.mem_iff.mp hfd
  apply ((plan.fork_passes stdio hown false).onLeave hleave).bind
  intro process
  have hclose : (Descriptor.dropAll [stdin, stdout, stderr]).Passes [stderr, stdout, stdin]
      (fun _ => []) [] :=
    Program.Passes.of_numbers (Descriptor.dropAll_passes [stdin, stdout, stderr]) hback.symm
  refine (Action.passes_lift hclose).bind fun _ => (Action.passes_log _).bind fun _ => ?_
  exact Action.passes_pure (fun _ => []) process

end Executable

namespace FifoConnection

theorem warnUnlessFifo_passes (c : FifoConnection) :
    c.warnUnlessFifo.Passes [] (fun _ => []) [] :=
  Action.makes_passes (c.warnUnlessFifo_makes fun _ => trivial)

theorem checkLength_passes (message : Bytes) :
    (checkLength message).Passes [] (fun _ => []) [] := by
  unfold checkLength
  split
  · exact Action.passes_throw _
  · exact Action.passes_pure (fun _ => []) ()

theorem sendMessage_passes (c : FifoConnection) (message : Bytes) :
    (c.sendMessage message).Passes [] (fun _ => []) [] := by
  refine c.warnUnlessFifo_passes.bind fun _ => (checkLength_passes message).bind fun _ => ?_
  apply (Descriptor.openFile_passes c.file _ _).bind
  intro d
  have hwrite : (d.write message).Passes [d] (fun _ => [d]) [d] :=
    Action.makes_passes (d.write_makes (fun _ _ => trivial) message)
  apply (hwrite.onLeave (Descriptor.dropAll_passes [d])).bind
  intro _
  exact Descriptor.finish_passes

theorem readMessage_passes (c : FifoConnection) (rounds : Nat) :
    (c.readMessage rounds).Passes [] (fun _ => []) [] := by
  apply c.warnUnlessFifo_passes.bind
  intro _
  apply (Descriptor.openFile_passes c.file _ _).bind
  intro d
  have hread : (readMessageFrom d false rounds).Passes [d] (fun _ => [d]) [d] :=
    Action.makes_passes (readMessageFrom_makes (fun _ _ => trivial) (fun _ => trivial) d false
      rounds)
  apply (hread.onLeave (Descriptor.dropAll_passes [d])).bind
  intro message
  apply Descriptor.finish_passes.bind
  intro _
  exact Action.passes_pure (fun _ => []) message

end FifoConnection

theorem MappedFile.zero_passes (m : MappedFile) (rounds : Nat) :
    (m.zero rounds).Passes [] (fun _ => []) [] := by
  have hopened : (do
      let d ← Descriptor.openFile m.file (OpenFlags.forAccess false true) m.permissions
      (m.fill d rounds).onLeave (Descriptor.dropAll [d])
      d.finish : Action Unit).Passes [] (fun _ => []) [] := by
    apply (Descriptor.openFile_passes m.file _ _).bind
    intro d
    have hfill : (m.fill d rounds).Passes [d] (fun _ => [d]) [d] :=
      Action.makes_passes (m.fill_makes (fun _ _ => trivial) d rounds)
    apply (hfill.onLeave (Descriptor.dropAll_passes [d])).bind
    intro _
    exact Descriptor.finish_passes
  unfold zero
  split
  · exact (Action.passes_abort _).bind fun _ => hopened
  · exact hopened

theorem Descriptor.openFile_failed {file : File} {flags : OpenFlags} {perm : Mode} {f : Failure}
    {s t : Finset Fd}
    (h : World.descriptors.Returns (Descriptor.openFile file flags perm).run s (.error f) t) :
    t = s := by
  have hpasses : (Descriptor.openFile file flags perm).Passes [] (fun d => [d]) [] :=
    Descriptor.openFile_passes file flags perm
  exact Holds.nil.mp ((hpasses s s (Holds.nil.mpr rfl)).returns h)

/-- Whatever is asked of them and whichever of their calls fail, the operations that open
descriptors for their own use return with the descriptors that were open before, and so does an
opening that fails. -/
theorem operations_leave_table (rounds : Nat) :
    (∀ e params env, (Executable.start e params env).LeavesTable) ∧
    (∀ e params, (Executable.startAndForget e params).LeavesTable) ∧
    (∀ e self params env, (Executable.capture e self params env rounds).LeavesTable) ∧
    (∀ self command, (Executable.system self command rounds).LeavesTable) ∧
    (∀ e params env input output error perm,
      (Executable.redirect e params env input output error perm).LeavesTable) ∧
    (∀ c message, (FifoConnection.sendMessage c message).LeavesTable) ∧
    (∀ c, (FifoConnection.readMessage c rounds).LeavesTable) ∧
    (∀ m, (MappedFile.zero m rounds).LeavesTable) ∧
    ∀ file flags perm s f t,
      World.descriptors.Returns (Descriptor.openFile file flags perm).run s (.error f) t →
        t = s := by
  refine ⟨fun e params env => ?_, fun e params => ?_, fun e self params env => ?_,
    fun self command => ?_, fun e params env input output error perm => ?_, fun c message => ?_,
    fun c => ?_, fun m => ?_, fun file flags perm s f t h => ?_⟩
  · exact (e.start_passes params env).leavesTable
  · exact (e.startAndForget_passes params).leavesTable
  · exact (e.capture_passes self params env rounds).leavesTable
  · exact (Executable.shell.capture_passes self _ none rounds).leavesTable
  · exact (e.redirect_passes params env input output error perm).leavesTable
  · exact (c.sendMessage_passes message).leavesTable
  · exact (c.readMessage_passes rounds).leavesTable
  · exact (m.zero_passes rounds).leavesTable
  · exact Descriptor.openFile_failed h

end OwnedHandles
