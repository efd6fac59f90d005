import OwnedHandles.Proofs.Exchange
import OwnedHandles.Proofs.Wiring

namespace OwnedHandles

theorem Table.ReadsOn.has {s : Table} {ro re : Fd} (h : s.ReadsOn ro re) (o : OutputStream) :
    s.Has o.pipe .read := by
  cases o with
  | stdout => exact ⟨ro, true, h.stdout⟩
  | stderr => exact ⟨re, true, h.stderr⟩

section Launch

open Contract (exchange ok)

variable {child : Pid} {capacity interruptions : Nat} {j : Job} {given : Fd → Option Bool}
  {s : Exchange} {ends : StreamEnds × StreamEnds}

theorem Exchange.unborn_not_running (hs : s.child = .unborn) (pipes : OutputStream → Nat)
    (left : List (OutputStream × Bytes)) : s.child ≠ .running pipes left := by
  rw [hs]
  nofun

theorem PipeEnds.openNamed_exchange (stream : String) (hs : s.child = .unborn)
    (hbounded : s.table.Bounded) :
    (World.exchange child capacity j).Meets (exchange child capacity j (ok fun p t =>
      ∃ r w, p.read.fd = some r ∧ p.write.fd = some w ∧ s.table.AreLowest r w ∧
        t = { s with table := s.table.addPipe r w })) (PipeEnds.openNamed stream).run s := by
  apply (World.meets_ask_bind _ _ _).mpr
  intro t ht
  obtain rfl := Exchange.others_eq (Exchange.unborn_not_running hs) ht
  refine ⟨fun _ => ?_, fun a u ha => ?_⟩
  · obtain ⟨r, w, hlow⟩ := hbounded.exists_areLowest
    exact .inl ⟨.ok (r, w), _, hlow, rfl⟩
  · cases a with
    | error e => exact ha.elim
    | ok numbers =>
      obtain ⟨hlow, rfl⟩ := ha
      exact exchange.done (Exchange.unborn_not_running hs)
        ⟨_, rfl, numbers.1, numbers.2, rfl, rfl, hlow, rfl⟩

theorem StreamEnds.openPipes_exchange (hbounded : (Table.before given).Bounded) :
    (World.exchange child capacity j).Meets (exchange child capacity j (ok fun ends t =>
      ∃ (n : Table.PipeNumbers) (table : Table), table.Piped given n ends.1 ends.2 ∧
        t = { Exchange.start given interruptions with table }))
      StreamEnds.openPipes.run (.start given interruptions) := by
  apply exchange.bind (PipeEnds.openNamed_exchange "stdin" rfl hbounded)
  intro first t ht
  obtain ⟨i, wi, hi, hwi, hlow, rfl⟩ := ht
  apply exchange.bind (exchange.onLeave (PipeEnds.openNamed_exchange "stdout" rfl
    (hbounded.addPipe i wi)))
  intro second t ht
  obtain ⟨ro, o, hro, ho, hlow', rfl⟩ := ht
  apply exchange.bind (exchange.onLeave (PipeEnds.openNamed_exchange "stderr" rfl
    ((hbounded.addPipe i wi).addPipe ro o)))
  intro third t ht
  obtain ⟨re, e, hre, he, hlow'', rfl⟩ := ht
  exact exchange.done (Exchange.unborn_not_running rfl)
    ⟨_, rfl, ⟨i, o, e, wi, ro, re⟩, _, .of_areLowest hi hwi hro ho hre he hlow hlow' hlow'', rfl⟩

theorem BlockedSignals.blockAll_exchange (hs : s.child = .unborn) :
    (World.exchange child capacity j).Meets (exchange child capacity j (ok fun _ t => t = s))
      blockAll.run s := by
  apply (World.meets_ask_bind _ _ _).mpr
  intro t ht
  obtain rfl := Exchange.others_eq (Exchange.unborn_not_running hs) ht
  refine ⟨fun _ => .inl ⟨.ok .full, t, fun _ => rfl, rfl⟩, fun a u ha => ?_⟩
  obtain ⟨hok, rfl⟩ := ha
  cases a with
  | error e => cases hok hs
  | ok mask => exact exchange.done (Exchange.unborn_not_running hs) ⟨_, rfl, rfl⟩

theorem Exchange.AtWork.child_ne {table : Table}
    (h : s.AtWork child capacity j table interruptions) : s.child ≠ .unborn := by
  obtain ⟨left, hchild | ⟨hchild, -⟩, -⟩ := h.written <;> rw [hchild] <;> nofun

theorem BlockedSignals.restoreLogged_exchange (b : BlockedSignals) {table : Table}
    (hs : s.AtWork child capacity j table interruptions) :
    (World.exchange child capacity j).Meets (exchange child capacity j fun _ t =>
      t.AtWork child capacity j table interruptions) b.restoreLogged s := by
  intro t ht
  have hwork := hs.others ht
  refine ⟨fun _ => .inl ⟨.ok .full, t, fun h => (hwork.child_ne h).elim, rfl⟩, fun a u ha => ?_⟩
  obtain ⟨-, rfl⟩ := ha
  cases a with
  | error e => exact fun v hv => hwork.others hv
  | ok mask => exact fun v hv => hwork.others hv

theorem LaunchPlan.fork_exchange (p : LaunchPlan) {n : Table.PipeNumbers} {table : Table}
    (hpiped : table.Piped given n ends.1 ends.2)
    (hs : s = { Exchange.start given interruptions with table }) :
    (World.exchange child capacity j).Meets (exchange child capacity j (ok fun process t =>
      process = { pid := child, name := some p.commandText } ∧
        t.AtWork child capacity j table interruptions))
      (p.fork (.redirect n.stdin n.stdout n.stderr) false).run s := by
  obtain ⟨-, hout, herr, houtput, herror⟩ := hpiped.entries
  have hunborn : s.child = .unborn := by rw [hs]; rfl
  apply exchange.bind (BlockedSignals.blockAll_exchange hunborn)
  intro b t ht
  obtain rfl := ht
  apply (World.meets_ask_bind _ _ _).mpr
  intro u hu
  obtain rfl := Exchange.others_eq (Exchange.unborn_not_running hunborn) hu
  subst hs
  refine ⟨fun _ => .inl ⟨.ok child, _, rfl, rfl, n.stdin, n.stdout, n.stderr, 1, 2, true, true, rfl,
    hout, herr, rfl⟩, fun a v ha => ?_⟩
  cases a with
  | error f => exact ha.elim
  | ok pid =>
    obtain ⟨rfl, -, i, o, e, out, err, b₁, b₂, htask, hout', herr', rfl⟩ := ha
    obtain ⟨rfl, rfl, rfl⟩ := ChildStdio.redirect.inj htask
    obtain ⟨rfl, -⟩ : 1 = out ∧ true = b₁ := by simpa using hout.symm.trans hout'
    obtain ⟨rfl, -⟩ : 2 = err ∧ true = b₂ := by simpa using herr.symm.trans herr'
    have hwork : Exchange.AtWork pid capacity j table interruptions
        { Exchange.start given interruptions with
          table, child := .running (OutputStream.among 1 2) j.writes } :=
      ⟨rfl, rfl, (Table.ReadsOn.mk houtput herror).has, fun _ => Nat.zero_le _, j.writes, .inl rfl,
        fun _ => rfl⟩
    apply (b.restoreLogged_exchange hwork).lift_bind
    intro _ w hw
    exact fun x hx => ⟨_, rfl, rfl, hw.others hx⟩

theorem Descriptor.closeSafe_exchange {d : Descriptor} {fd ro re : Fd} {table : Table}
    (hd : d.fd = some fd) (hs : s.AtWork child capacity j table interruptions)
    (hreads : (table.remove fd).ReadsOn ro re) :
    (World.exchange child capacity j).Meets (exchange child capacity j fun _ t =>
      t.AtWork child capacity j (table.remove fd) interruptions) d.closeSafe s := by
  unfold closeSafe close
  simp only [hd, Program.bind_eq, Program.ask_bind, Program.call_bind]
  intro t ht
  refine ⟨fun _ => .inl ⟨.ok (), _, rfl⟩, fun a u ha => ?_⟩
  obtain rfl : u = { t with table := t.table.remove fd } := ha
  have hclosed := (hs.others ht).close hreads.has
  cases a with
  | ok _ => exact fun v hv => hclosed.others hv
  | error e => exact fun v hv => hclosed.others hv

theorem Descriptor.drop_exchange {d : Descriptor} {fd ro re : Fd} {table : Table}
    (hd : d.fd = some fd) (hs : s.AtWork child capacity j table interruptions)
    (hreads : (table.remove fd).ReadsOn ro re) :
    (World.exchange child capacity j).Meets (exchange child capacity j fun _ t =>
      t.AtWork child capacity j (table.remove fd) interruptions) d.drop s := by
  unfold drop
  rw [if_pos (by simp [isOpen, hd])]
  exact closeSafe_exchange hd hs hreads

theorem StreamEnds.drop_exchange {e : StreamEnds} {a b c ro re : Fd} {table : Table}
    (ha : e.stdin.fd = some a) (hb : e.stdout.fd = some b) (hc : e.stderr.fd = some c)
    (hs : s.AtWork child capacity j table interruptions)
    (hreads : (((table.remove a).remove b).remove c).ReadsOn ro re) :
    (World.exchange child capacity j).Meets (exchange child capacity j fun _ t =>
      t.AtWork child capacity j (((table.remove a).remove b).remove c) interruptions) e.drop s := by
  apply (Descriptor.drop_exchange ha hs hreads.of_remove.of_remove).bind
  intro _ t ht
  apply (Descriptor.drop_exchange hb ht hreads.of_remove).bind
  intro _ t ht
  apply (Descriptor.drop_exchange hc ht hreads).bind
  intro _ t ht
  exact fun u hu => ht.others hu

theorem Executable.startOnPipes_exchange (plan : LaunchPlan)
    (hbounded : (Table.before given).Bounded) :
    (World.exchange child capacity j).Meets (exchange child capacity j (ok fun started t =>
      started.1 = { pid := child, name := some plan.commandText } ∧
        ∃ table : Table, table.Feeds started.2 ∧ t.AtWork child capacity j table interruptions))
      (startOnPipes plan).run (.start given interruptions) := by
  apply exchange.bind (StreamEnds.openPipes_exchange hbounded)
  intro ends t ht
  obtain ⟨n, table, hpiped, rfl⟩ := ht
  refine exchange.bind (exchange.onLeave (P := fun stdio t =>
    stdio = .redirect n.stdin n.stdout n.stderr ∧
      t = { Exchange.start given interruptions with table }) ?_) fun stdio t ht => ?_
  · rw [hpiped.stdio_ok]
    exact exchange.done (Exchange.unborn_not_running rfl) ⟨_, rfl, rfl, rfl⟩
  obtain ⟨rfl, rfl⟩ := ht
  apply exchange.bind (exchange.onLeave (plan.fork_exchange hpiped rfl))
  intro process t ht
  obtain ⟨rfl, hwork⟩ := ht
  have hreads := hpiped.readsOn
  apply (StreamEnds.drop_exchange hpiped.stdin_fd hpiped.stdout_fd hpiped.stderr_fd hwork
    hreads.of_remove).lift_bind
  intro _ u hu
  exact fun v hv => ⟨_, rfl, rfl, _, hpiped.feeds, hu.others hv⟩

end Launch

section Reading

open Contract (exchange ok)

variable {child self : Pid} {capacity interruptions : Nat} {j : Job} {table : Table}
  {s t : Exchange}

def Job.joined (j : Job) (p : ProcessHandle) : Except Failure Int :=
  match j.told p.pid with
  | .ok status => status.outcome false
  | .error e => .error (.callFailed "waitpid" p.context e)

theorem Exchange.reaped_not_running (hs : s.child = .reaped) (pipes : OutputStream → Nat)
    (left : List (OutputStream × Bytes)) : s.child ≠ .running pipes left := by
  rw [hs]
  nofun

theorem ProcessHandle.join_exchange (p : ProcessHandle) (hself : p.pid ≠ self)
    (hs : s.AtWork p.pid capacity j table interruptions) :
    (World.exchange p.pid capacity j).Meets (exchange p.pid capacity j fun r t =>
      r = j.joined p ∧ j.Fits capacity ∧ t.Delivered j table interruptions)
      (p.join self false).run s := by
  unfold join
  rw [if_neg hself]
  apply (World.meets_ask_bind _ _ _).mpr
  intro t ht
  have hwork := hs.others ht
  refine ⟨fun hfits => hwork.canGoOn_wait hfits, fun a u ha => ?_⟩
  obtain ⟨-, hended, rfl⟩ := ha
  obtain ⟨htold, hfits, hqueue⟩ := hwork.of_ended hended
  have hdelivered : Exchange.Delivered j table interruptions { t with child := .reaped } :=
    ⟨hwork.table_eq, hwork.interruptions_eq, rfl, hqueue⟩
  cases a with
  | error e =>
    refine exchange.done (Exchange.reaped_not_running rfl) ⟨?_, hfits, hdelivered⟩
    simp [Job.joined, ← htold]
  | ok status =>
    refine (World.meets_log_bind _ _ _).mpr ((World.meets_ofExcept _ _).mpr fun v hv => ?_)
    obtain rfl := Exchange.others_eq (Exchange.reaped_not_running rfl) hv
    refine ⟨?_, hfits, hdelivered⟩
    simp [Job.joined, ← htold]

structure Exchange.ReadFrom (k : Nat) (s t : Exchange) : Prop where
  table_eq : t.table = s.table
  child_eq : t.child = s.child
  interruptions_le : t.interruptions ≤ s.interruptions
  queue_eq : ∀ n ≠ k, t.queue n = s.queue n

theorem Exchange.ReadFrom.refl (k : Nat) (s : Exchange) : s.ReadFrom k s :=
  ⟨rfl, rfl, Nat.le_refl _, fun _ _ => rfl⟩

theorem Exchange.ReadFrom.trans {k : Nat} {u : Exchange} (h : s.ReadFrom k t)
    (h' : t.ReadFrom k u) : s.ReadFrom k u where
  table_eq := h'.table_eq.trans h.table_eq
  child_eq := h'.child_eq.trans h.child_eq
  interruptions_le := Nat.le_trans h'.interruptions_le h.interruptions_le
  queue_eq n hn := (h'.queue_eq n hn).trans (h.queue_eq n hn)

theorem Exchange.canGoOn_read {k fd count : Nat} {closeOnExec : Bool} (hs : s.child = .reaped)
    (hentry : s.table.entries fd = some ⟨.pipe k .read, closeOnExec⟩)
    (hends : s.table.HoldsNoWriteEnd) :
    (World.exchange child capacity j).CanGoOn s (.read fd (count + 1)) := by
  refine .inl ?_
  match hqueue : s.queue k with
  | [] =>
    refine ⟨.ok [], s, k, closeOnExec, hentry, .inr ⟨rfl, hqueue, ?_, rfl⟩⟩
    rintro (⟨n, b, hn⟩ | ⟨pipes, left, o, hrunning, -⟩)
    · exact hends n k b hn
    · exact reaped_not_running hs pipes left hrunning
  | b :: bs =>
    exact ⟨.ok [b], _, k, closeOnExec, hentry,
      .inl ⟨List.cons_ne_nil b [], Nat.le_add_left 1 count, bs, hqueue, rfl⟩⟩

theorem Descriptor.readOn_exchange {d : Descriptor} {fd k : Nat} {closeOnExec : Bool}
    (hd : d.fd = some fd) (rounds : Nat) (content : List Bytes) (hs : s.child = .reaped)
    (hentry : s.table.entries fd = some ⟨.pipe k .read, closeOnExec⟩)
    (hends : s.table.HoldsNoWriteEnd) (hrounds : s.interruptions + (s.queue k).length < rounds) :
    (World.exchange child capacity j).Meets (exchange child capacity j (ok fun bs t =>
      bs = content.reverse.flatten ++ s.queue k ∧ s.ReadFrom k t))
      (d.readOn rounds content).run s := by
  induction rounds generalizing s content with
  | zero => exact absurd hrounds (Nat.not_lt_zero _)
  | succ rounds ih =>
    unfold readOn read
    simp only [hd]
    apply (World.meets_lift_bind _ _ _).mpr
    intro t ht
    obtain rfl := Exchange.others_eq (Exchange.reaped_not_running hs) ht
    refine ⟨fun _ => Exchange.canGoOn_read hs hentry hends, fun a u ha => ?_⟩
    cases a with
    | ok chunk =>
      obtain ⟨k', b', hentry', hsplit⟩ := ha
      obtain ⟨rfl, -⟩ : k = k' ∧ closeOnExec = b' := by simpa using hentry.symm.trans hentry'
      rcases hsplit with ⟨hchunk, -, later, hqueue, rfl⟩ | ⟨rfl, hqueue, -, rfl⟩
      · obtain ⟨b, bs, rfl⟩ := List.exists_cons_of_ne_nil hchunk
        have hread : t.ReadFrom k (t.setQueue k later) :=
          ⟨rfl, rfl, Nat.le_refl _, fun n hn => if_neg hn⟩
        have hlater : t.interruptions + ((t.setQueue k later).queue k).length < rounds := by
          simp [hqueue] at hrounds ⊢
          omega
        have hrest := ih (s := t.setQueue k later) ((b :: bs) :: content) hs hentry hends hlater
        refine exchange.done (Exchange.reaped_not_running hs) (hrest.returning fun r v hr => ?_)
        obtain ⟨text, rfl, rfl, hlast⟩ := hr
        exact ⟨_, rfl, by simp [hqueue], hread.trans hlast⟩
      · refine exchange.done (Exchange.reaped_not_running hs)
          (exchange.done (Exchange.reaped_not_running hs) ⟨_, rfl, ?_, .refl k u⟩)
        simp [hqueue]
    | error e =>
      obtain ⟨rfl, m, hm, rfl⟩ : e = .EINTR ∧ ∃ m, t.interruptions = m + 1 ∧
          u = { t with interruptions := m } := by
        cases e <;> first | exact ⟨rfl, ha⟩ | exact ha.elim
      have hread : t.ReadFrom k { t with interruptions := m } :=
        ⟨rfl, rfl, hm ▸ Nat.le_succ m, fun _ _ => rfl⟩
      have hfewer : m + (t.queue k).length < rounds := by omega
      have hrest := ih (s := { t with interruptions := m }) content hs hentry hends hfewer
      refine exchange.done (Exchange.reaped_not_running hs) (hrest.returning fun r v hr => ?_)
      obtain ⟨text, rfl, htext, hlast⟩ := hr
      exact ⟨text, rfl, htext, hread.trans hlast⟩

theorem StreamEnds.closeCaptured_exchange (ds : List Descriptor) {R : Unit → Exchange → Prop}
    (h : ∀ t, R () t) :
    (World.exchange child capacity j).Meets (exchange child capacity j R) (closeCaptured ds) s := by
  induction ds generalizing s with
  | nil => exact fun t _ => h t
  | cons d ds ih =>
    apply (World.meets_bind _ _ _).mpr
    unfold Descriptor.close
    cases d.fd with
    | none => exact fun t _ => ih
    | some fd =>
      refine fun t _ => ⟨fun _ => .inl ⟨.ok (), _, rfl⟩, fun a u _ => ?_⟩
      cases a with
      | ok _ => exact fun v _ => ih
      | error e => exact fun v _ => ih

theorem StreamEnds.drain_exchange {e : StreamEnds} {ro re rounds : Nat}
    (hstdin : e.stdin.fd = none) (hro : e.stdout.fd = some ro) (hre : e.stderr.fd = some re)
    (hs : s.Delivered j table interruptions) (hreads : table.ReadsOn ro re)
    (hends : table.HoldsNoWriteEnd)
    (hrounds : ∀ o, interruptions + (j.written o).length < rounds) :
    (World.exchange child capacity j).Meets (exchange child capacity j (ok fun streams _ =>
      streams = (j.written .stdout, j.written .stderr))) (e.drain rounds).run s := by
  obtain ⟨rfl, rfl, hreaped, hqueue⟩ := hs
  have hclosed : e.stdin.closeSafe = .done e.stdin := by
    simp [Descriptor.closeSafe, Descriptor.close, hstdin]
  have hnone := Exchange.reaped_not_running hreaped
  have hout := hqueue .stdout
  unfold drain
  rw [hclosed]
  refine (World.meets_lift_bind _ _ _).mpr (exchange.done hnone ?_)
  apply exchange.bind (exchange.onLeave (Descriptor.readOn_exchange hro rounds [] hreaped
    hreads.stdout hends (hout ▸ hrounds .stdout)))
  intro out t ht
  obtain ⟨rfl, hread⟩ := ht
  have herr : t.queue 2 = j.written .stderr := (hread.queue_eq 2 (by decide)).trans (hqueue .stderr)
  apply exchange.bind (exchange.onLeave (Descriptor.readOn_exchange hre rounds []
    (hread.child_eq.trans hreaped) (hread.table_eq ▸ hreads.stderr) (hread.table_eq ▸ hends)
    (herr ▸ Nat.lt_of_le_of_lt (Nat.add_le_add_right hread.interruptions_le _)
      (hrounds .stderr))))
  intro err u hu
  obtain ⟨rfl, -⟩ := hu
  refine (World.meets_lift_bind _ _ _).mpr (closeCaptured_exchange _ fun v w _ => ⟨_, rfl, ?_⟩)
  exact Prod.ext hout herr

theorem Executable.conclude_ok (plan : LaunchPlan) (p : ProcessHandle) (code : Int)
    (out err : Bytes) : (conclude plan p (.ok code) out err).run =
      .note (drained p code out err) (.done (if code = 0 then .ok (Text.decodeLossy out)
        else .error (.executionFailed plan.commandText code (Text.decodeLossy err)))) := by
  by_cases h : code = 0
  · subst h
    rfl
  · simp only [h, if_false]
    change Program.note _ (if code = 0 then _ else _ : Action String).run = _
    rw [if_neg h]
    rfl

theorem Job.joined_named (j : Job) (child : Pid) (commandText : String) :
    match j.joined { pid := child, name := some commandText } with
    | .ok code => j.ending = .exits code
    | .error f => j.result commandText child = .error f := by
  obtain ⟨writes, ending⟩ := j
  cases ending with
  | exits code => rfl
  | killed signal core =>
    cases h : Signal.ofNumber? signal with
    | none => simp [joined, told, result, h]
    | some s => simp [joined, told, result, h, WaitStatus.outcome, Signal.number_eq h]

theorem Executable.conclude_exchange (plan : LaunchPlan)
    {R : Except Failure String → Exchange → Prop}
    (h : ∀ t, R (j.result plan.commandText child) t) :
    (World.exchange child capacity j).Meets (exchange child capacity j R)
      (conclude plan { pid := child, name := some plan.commandText }
        (j.joined { pid := child, name := some plan.commandText }) (j.written .stdout)
        (j.written .stderr)).run s := by
  have hjoined := j.joined_named child plan.commandText
  cases hcase : j.joined { pid := child, name := some plan.commandText } with
  | error f =>
    rw [hcase] at hjoined
    exact fun t _ => hjoined ▸ h t
  | ok code =>
    rw [hcase] at hjoined
    rw [conclude_ok]
    intro t _
    have hresult := h t
    simp only [Job.result, hjoined] at hresult
    exact hresult

end Reading

section Whole

open Contract (exchange ok)

variable {self child : Pid} {given : Fd → Option Bool} {capacity interruptions rounds : Nat}
  {j : Job}

theorem Executable.capture_exchange (e : Executable) {params : List Bytes}
    {env : Option Environment} {plan : LaunchPlan}
    (hplan : LaunchPlan.make e.program params env = .ok plan) (hself : child ≠ self)
    (hbounded : (Table.before given).Bounded)
    (hrounds : ∀ o, interruptions + (j.written o).length < rounds) :
    (World.exchange child capacity j).Meets (exchange child capacity j fun r _ =>
      j.Fits capacity ∧ r = j.result plan.commandText child)
      (e.capture self params env rounds).run (.start given interruptions) := by
  refine exchange.bind (P := fun p t => p = plan ∧ t = .start given interruptions) ?_
    fun p t ht => ?_
  · unfold Executable.plan
    rw [hplan]
    exact exchange.done (Exchange.unborn_not_running rfl) ⟨plan, rfl, rfl, rfl⟩
  obtain ⟨rfl, rfl⟩ := ht
  apply exchange.bind (startOnPipes_exchange p hbounded)
  intro started t ht
  obtain ⟨process, parent⟩ := started
  obtain ⟨rfl, table, ⟨wi, ro, re, hwi, hro, hre, hreads, hends⟩, hwork⟩ := ht
  dsimp only
  rw [Descriptor.lift_closeSafe_bind]
  apply (Descriptor.closeSafe_exchange hwi hwork hreads).lift_bind
  intro _ u hu
  have hjoin := ProcessHandle.join_exchange { pid := child, name := some p.commandText } hself hu
  refine (World.meets_lift_bind _ _ _).mpr ((World.meets_leaving _ _ _ _).mpr
    (hjoin.weaken (fun _ _ h => h) (fun r v hv => ?_) (fun _ _ h => h.elim) (fun _ h => h)))
  obtain ⟨rfl, hfits, hdelivered⟩ := hv
  apply exchange.done (Exchange.reaped_not_running hdelivered.child_eq)
  refine exchange.bind (StreamEnds.drain_exchange rfl hro hre hdelivered hreads hends hrounds)
    fun streams x hx => ?_
  subst hx
  exact conclude_exchange p fun _ => ⟨hfits, rfl⟩

/-- Every run comes to this result where the output of the job fits into its pipes, and none comes
to any where it does not. -/
def Action.DeliversOrBlocks (p : Action String) (child : Pid) (capacity : Nat) (j : Job)
    (s : Exchange) (r : Except Failure String) : Prop :=
  (j.Fits capacity → (World.exchange child capacity j).Yields p.run s r) ∧
    (¬j.Fits capacity → ∀ r' t, ¬(World.exchange child capacity j).Returns p.run s r' t)

theorem Executable.capture_deliversOrBlocks (e : Executable) {params : List Bytes}
    {env : Option Environment} {plan : LaunchPlan}
    (hplan : LaunchPlan.make e.program params env = .ok plan) (hself : child ≠ self)
    (hbounded : (Table.before given).Bounded)
    (hrounds : ∀ o, interruptions + (j.written o).length < rounds) :
    (e.capture self params env rounds).DeliversOrBlocks child capacity j
      (.start given interruptions) (j.result plan.commandText child) := by
  have hmeets : (World.exchange child capacity j).Meets _ _ _ :=
    e.capture_exchange hplan hself hbounded hrounds
  constructor
  · intro hfits
    exact hmeets.yields (Exchange.childStep_wellFounded child capacity j) (fun _ _ h => h hfits)
      (fun _ _ h => h.2) (fun _ _ h => h) (fun _ h => h)
  · intro hfits r t hreturns
    exact hfits (hmeets.returns hreturns).1

/-- A child that writes what it wants and then ends is captured whatever the order of its steps and
the parent's, and however the reads are split and interrupted, exactly as long as each of its
streams fits into a pipe. -/
theorem Executable.captures_deliver_or_block (hself : child ≠ self) {bound : Fd}
    (hgiven : ∀ n, bound ≤ n → given n = none) (capacity : Nat)
    (hrounds : ∀ o, interruptions + (j.written o).length < rounds) :
    (∀ (e : Executable) params env plan, LaunchPlan.make e.program params env = .ok plan →
      (e.capture self params env rounds).DeliversOrBlocks child capacity j
        (.start given interruptions) (j.result plan.commandText child)) ∧
    ∀ command plan, LaunchPlan.make shell.program
        [Bytes.ofString Limits.shellCommandParameter, command] none = .ok plan →
      (system self command rounds).DeliversOrBlocks child capacity j
        (.start given interruptions) (j.result plan.commandText child) :=
  ⟨fun e _ _ _ hplan => e.capture_deliversOrBlocks hplan hself (.before hgiven) hrounds,
    fun _ _ hplan => shell.capture_deliversOrBlocks hplan hself (.before hgiven) hrounds⟩

end Whole

/-- Two bytes fit into a pipe of two bytes, and not into one of one byte. -/
theorem Executable.captures_deliver_or_block_two_bytes :
    let j : Job := ⟨[(.stdout, [104]), (.stderr, [33]), (.stdout, [105])], .exits 0⟩
    (World.exchange 7 2 j).Yields (shell.capture 1 [] none 4).run (.start (fun _ => none) 1)
        (.ok "hi") ∧
      (∀ r t, ¬(World.exchange 7 1 j).Returns (shell.capture 1 [] none 4).run
        (.start (fun _ => none) 1) r t) ∧
      (World.exchange 7 2 j).Yields (system 1 [] 4).run (.start (fun _ => none) 1) (.ok "hi") := by
  intro j
  have hrounds : ∀ o, 1 + (j.written o).length < 4 := by
    intro o
    cases o <;> decide
  have hfits : j.Fits 2 := by
    intro o
    cases o <;> decide
  have hblocks : ¬j.Fits 1 := fun h => absurd (h .stdout) (by decide)
  obtain ⟨plan, hplan⟩ : ∃ plan, LaunchPlan.make shell.program [] none = .ok plan :=
    ⟨⟨⟨[Bytes.ofString "/bin/sh"]⟩, none, Bytes.ofString "/bin/sh"⟩, by decide +kernel⟩
  obtain ⟨plan', hplan'⟩ : ∃ plan, LaunchPlan.make shell.program
      [Bytes.ofString Limits.shellCommandParameter, []] none = .ok plan :=
    ⟨⟨⟨[Bytes.ofString "/bin/sh", Bytes.ofString "-c", []]⟩, none, Bytes.ofString "/bin/sh -c "⟩,
      by decide +kernel⟩
  have htext : Text.decodeLossy (j.written .stdout) = "hi" := by decide +kernel
  have hresult (commandText : String) : j.result commandText 7 = .ok "hi" :=
    congrArg Except.ok htext
  refine ⟨?_, ?_, ?_⟩
  · rw [← hresult plan.commandText]
    exact ((captures_deliver_or_block (by decide) (fun n (_ : 0 ≤ n) => rfl) 2 hrounds).1 shell []
      none plan hplan).1 hfits
  · exact ((captures_deliver_or_block (by decide) (fun n (_ : 0 ≤ n) => rfl) 1 hrounds).1 shell []
      none plan hplan).2 hblocks
  · rw [← hresult plan'.commandText]
    exact ((captures_deliver_or_block (by decide) (fun n (_ : 0 ≤ n) => rfl) 2 hrounds).2 []
      plan' hplan').1 hfits

/-- A child that a signal beyond the classic ones has killed is not reported as killed by it. -/
theorem Executable.capture_of_unnamed_signal :
    let j : Job := ⟨[], .killed 34 false⟩
    j.Fits 65536 ∧ ¬(World.exchange 7 65536 j).Yields (shell.capture 1 [] none 1).run
      (.start (fun _ => none) 0) (.error (.signaled 34)) := by
  intro j
  have hfits : j.Fits 65536 := by
    intro o
    cases o <;> decide
  have hrounds : ∀ o, 0 + (j.written o).length < 1 := by
    intro o
    cases o <;> decide
  obtain ⟨plan, hplan⟩ : ∃ plan, LaunchPlan.make shell.program [] none = .ok plan :=
    ⟨⟨⟨[Bytes.ofString "/bin/sh"]⟩, none, Bytes.ofString "/bin/sh"⟩, by decide +kernel⟩
  have hcapture : (World.exchange 7 65536 j).Yields (shell.capture 1 [] none 1).run
      (.start (fun _ => none) 0) (j.result plan.commandText 7) :=
    (shell.capture_deliversOrBlocks hplan (by decide) (.before fun n (_ : 0 ≤ n) => rfl)
      hrounds).1 hfits
  obtain ⟨t, hreturns⟩ := hcapture.completes _ .refl
  refine ⟨hfits, fun h => ?_⟩
  cases h.only _ t hreturns

end OwnedHandles
