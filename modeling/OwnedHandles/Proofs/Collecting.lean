import OwnedHandles.Proofs.Capture
import OwnedHandles.Proofs.Offspring

namespace OwnedHandles

def Contract.early {α : Type} (s : Offspring) (P : α → Offspring → Prop) :
    Except Failure α → Offspring → Prop
  | .ok a, t => P a t
  | .error f, t => f.BeforeChild ∧ s.Barren t

section Pipes

open Contract (raising early)

variable {α β : Type} {self : Pid} {few : Prop} {s t : Offspring} {ds : List Deed}
  {P : α → Offspring → Prop} {Q : β → Offspring → Prop}

theorem Contract.early.bind {p : Action α} {f : α → Action β}
    (hp : (World.offspring self).Meets (raising self few (early s P)) p.run t)
    (hf : ∀ a u, P a u → (World.offspring self).Meets (raising self few (early s Q)) (f a).run u) :
    (World.offspring self).Meets (raising self few (early s Q)) (p >>= f).run t :=
  raising.bind hp hf fun _ _ h => h

theorem Contract.early.onLeave {p : Action α} {fin : Program Unit}
    (hp : (World.offspring self).Meets (raising self few (early s P)) p.run t)
    (hfin : fin.Makes Call.Calm) (hfinishes : fin.Finishes) :
    (World.offspring self).Meets (raising self few (early s P)) (p.onLeave fin).run t := by
  refine raising.onLeave hp fun f u hu => ?_
  exact raising.calm hfin hfinishes (fun _ _ hv => ⟨hu.1, hv⟩) hu.2

theorem PipeEnds.openNamed_raises (stream : String) (hds : ∀ pid, .started pid ∉ ds)
    (ht : s.Since ds t) :
    (World.offspring self).Meets (raising self few (early s fun p u => ∃ r w,
      p = ⟨.owning r (stream ++ " pipe (read end)"), .owning w (stream ++ " pipe (write end)")⟩ ∧
        s.Since (ds ++ [.piped r w]) u)) (openNamed stream).run t := by
  refine (World.meets_ask_bind _ _ _).mpr fun u hu => ⟨Call.Calm.canGoOn trivial, fun a v ha => ?_⟩
  have hsu := ht.others hu
  cases a with
  | error e =>
    obtain rfl : v = u := ha
    exact fun w hw => ⟨by simp [Failure.BeforeChild], ds, hds, hsu.others hw⟩
  | ok ends =>
    obtain ⟨r, w⟩ := ends
    obtain rfl : v = u.did (.piped r w) := ha
    exact fun x hx => ⟨r, w, rfl, (hsu.trans (.of_did u _)).others hx⟩

namespace StreamEnds

def child (n : Table.PipeNumbers) : StreamEnds :=
  ⟨.owning n.stdin ("stdin" ++ " pipe (read end)"),
    .owning n.stdout ("stdout" ++ " pipe (write end)"),
    .owning n.stderr ("stderr" ++ " pipe (write end)")⟩

def parent (n : Table.PipeNumbers) : StreamEnds :=
  ⟨.owning n.feed ("stdin" ++ " pipe (write end)"),
    .owning n.output ("stdout" ++ " pipe (read end)"),
    .owning n.error ("stderr" ++ " pipe (read end)")⟩

end StreamEnds

def Table.PipeNumbers.piped (n : PipeNumbers) : List Deed :=
  [.piped n.stdin n.feed, .piped n.output n.stdout, .piped n.error n.stderr]

theorem StreamEnds.openPipes_raises :
    (World.offspring self).Meets (raising self few (early s fun ends t => ∃ n,
      ends = (.child n, .parent n) ∧ s.Since n.piped t)) openPipes.run s := by
  have hdrop (p : PipeEnds) : p.drop.Makes Call.Calm := p.drop_makes fun _ => trivial
  refine early.bind (PipeEnds.openNamed_raises "stdin" (by simp) (.refl s)) ?_
  rintro _ t ⟨i, f, rfl, ht⟩
  refine early.bind (early.onLeave (PipeEnds.openNamed_raises "stdout" (by simp) ht) (hdrop _)
    (Descriptor.dropAll_finishes _)) ?_
  rintro _ u ⟨o, wo, rfl, hu⟩
  refine early.bind (early.onLeave (PipeEnds.openNamed_raises "stderr" (by simp) hu)
    ((hdrop _).bind fun _ => hdrop _)
    ((Descriptor.dropAll_finishes _).bind fun _ => Descriptor.dropAll_finishes _)) ?_
  rintro _ v ⟨e, we, rfl, hv⟩
  exact fun w hw => ⟨⟨i, wo, we, f, o, e⟩, rfl, hv.others hw⟩

theorem Descriptor.close_raises (fd : Fd) (name : String) (ht : s.Since ds t) :
    (World.offspring self).Meets (raising self few fun r u =>
      r.2 = (owning fd name).closed ∧ s.Since (ds ++ [.closed fd]) u) (owning fd name).close t := by
  intro u hu
  refine ⟨Call.Calm.canGoOn trivial, fun a v ha => ?_⟩
  obtain rfl : v = u.did (.closed fd) := ha
  have hsv := (ht.others hu).trans (.of_did u (.closed fd))
  cases a with
  | ok _ => exact fun w hw => ⟨rfl, hsv.others hw⟩
  | error e => exact fun w hw => ⟨rfl, hsv.others hw⟩

theorem Descriptor.closeSafe_raises (fd : Fd) (name : String) (ht : s.Since ds t) :
    (World.offspring self).Meets (raising self few fun d u =>
      d = (owning fd name).closed ∧ s.Since (ds ++ [.closed fd]) u)
      (owning fd name).closeSafe t := by
  refine World.Meets.bind (close_raises fd name ht) fun r u hu => ?_
  obtain ⟨r, d⟩ := r
  obtain ⟨rfl, hu⟩ := hu
  cases r with
  | ok _ => exact fun v hv => ⟨rfl, hu.others hv⟩
  | error f => exact fun v hv => ⟨rfl, hu.others hv⟩

theorem Descriptor.dropAll_raises (fds : List (Fd × String)) (ht : s.Since ds t) :
    (World.offspring self).Meets (raising self few fun _ u =>
      s.Since (ds ++ fds.map fun d => .closed d.1) u)
      (dropAll (fds.map fun d => owning d.1 d.2)) t := by
  induction fds generalizing ds t with
  | nil => exact fun u hu => (List.append_nil ds).symm ▸ ht.others hu
  | cons d fds ih =>
    refine World.Meets.bind (closeSafe_raises d.1 d.2 ht) fun _ u hu => ?_
    simpa using ih hu.2

theorem StreamEnds.closeCaptured_raises (fds : List (Fd × String)) (ht : s.Since ds t) :
    (World.offspring self).Meets (raising self few fun _ u =>
      s.Since (ds ++ fds.map fun d => .closed d.1) u)
      (closeCaptured (fds.map fun d => .owning d.1 d.2)) t := by
  induction fds generalizing ds t with
  | nil => exact fun u hu => (List.append_nil ds).symm ▸ ht.others hu
  | cons d fds ih =>
    refine World.Meets.bind (Descriptor.close_raises d.1 d.2 ht) fun r u hu => ?_
    obtain ⟨r, _⟩ := r
    cases r with
    | ok _ => simpa using ih hu.2
    | error f => simpa using ih hu.2

theorem Descriptor.readOn_raises (fd : Fd) (name : String) (rounds : Nat) (content : List Bytes)
    (hfew : rounds ≤ t.supply → few) (ht : s.Since ds t) :
    (World.offspring self).Meets (raising self few fun r u =>
      (∃ bs, r = .ok bs) ∧ s.Since (ds ++ [.drained fd]) u)
      ((owning fd name).readOn rounds content).run t := by
  -- every read that is not the last one uses up some of the supply
  induction rounds generalizing t content with
  | zero => exact fun _ _ => hfew (Nat.zero_le _)
  | succ rounds ih =>
    refine (World.meets_lift_bind _ _ _).mpr fun u hu =>
      ⟨Call.Calm.canGoOn trivial, fun a v ha => ?_⟩
    have hsu := ht.others hu
    have htu : t.Since [] u := .others (.refl t) hu
    have hagain (chunks : List Bytes) (h : ∃ n, u.supply = n + 1 ∧ v = { u with supply := n }) :
        ∀ w, (World.offspring self).Others v w → (World.offspring self).Meets
          (raising self few fun r x => (∃ bs, r = .ok bs) ∧ s.Since (ds ++ [.drained fd]) x)
          ((owning fd name).readOn rounds chunks).run w := by
      obtain ⟨n, hn, rfl⟩ := h
      intro w hw
      have hsw : s.Since ds w := by simpa using (hsu.trans (.of_spent hn)).others hw
      have hfewer : w.supply ≤ n := (Offspring.Since.others (.refl _) hw).supply
      have hmore : n + 1 ≤ t.supply := hn ▸ htu.supply
      exact ih chunks (fun h => hfew (by omega)) hsw
    cases a with
    | ok chunk =>
      cases chunk with
      | nil =>
        obtain rfl : v = u.did (.drained fd) := ha
        exact fun w hw x hx => ⟨⟨_, rfl⟩, ((hsu.trans (.of_did u _)).others hw).others hx⟩
      | cons b bs => exact hagain _ ha
    | error e =>
      cases e with
      | EINTR => exact hagain _ ha
      | _ => exact ha.elim

theorem StreamEnds.drain_raises (n : Table.PipeNumbers) (rounds : Nat) (d : Descriptor)
    (hd : d.fd = none) (hfew : rounds ≤ s.supply → few) (ht : s.Since ds t) :
    (World.offspring self).Meets (raising self few fun r u => (∃ streams, r = .ok streams) ∧
      s.Since (ds ++ [.drained n.output, .drained n.error, .closed n.output, .closed n.error]) u)
      (({ parent n with stdin := d }).drain rounds).run t := by
  have hclosed : d.closeSafe = .done d := by
    simp [Descriptor.closeSafe, Descriptor.close, hd]
  have hread {fd : Fd} (name : String) {es : List Deed} {u : Offspring} (fin : Program Unit)
      (hu : s.Since es u) : (World.offspring self).Meets (raising self few fun r v =>
        (∃ bs, r = .ok bs) ∧ s.Since (es ++ [.drained fd]) v)
        (((Descriptor.owning fd name).readToEnd rounds).onLeave fin).run u := by
    refine raising.onLeave (Descriptor.readOn_raises fd name rounds []
      (fun h => hfew (h.trans hu.supply)) hu) fun e v h => ?_
    obtain ⟨bs, hbs⟩ := h.1
    cases hbs
  unfold drain
  rw [show ({ parent n with stdin := d } : StreamEnds).stdin.closeSafe = .done d from hclosed]
  refine (World.meets_lift_bind _ _ _).mpr fun u hu => ?_
  refine raising.bind (hread _ _ (ht.others hu)) (fun out v hv => ?_) (fun e v h => ?_)
  · refine raising.bind (hread _ _ hv.2) (fun err w hw => ?_) (fun e w h => ?_)
    · refine World.Meets.lift_bind (closeCaptured_raises [(n.output, _), (n.error, _)] hw.2)
        fun _ x hx y hy => ⟨⟨_, rfl⟩, ?_⟩
      simpa using hx.others hy
    · obtain ⟨bs, hbs⟩ := h.1
      cases hbs
  · obtain ⟨bs, hbs⟩ := h.1
    cases hbs

theorem Executable.startOnPipes_raises (plan : LaunchPlan) :
    (World.offspring self).Meets (raising self few (early s fun started t => ∃ n,
      started.2 = .parent n ∧ started.1.name = some plan.commandText ∧ s.Bears self started.1 t ∧
        s.Since (n.piped ++ [.started started.1.pid, .closed n.stdin, .closed n.stdout,
          .closed n.stderr]) t))
      (startOnPipes plan).run s := by
  have hdrop (e : StreamEnds) : e.drop.Makes Call.Calm := e.drop_makes fun _ => trivial
  have hfinishes (e : StreamEnds) : e.drop.Finishes := Descriptor.dropAll_finishes _
  refine early.bind StreamEnds.openPipes_raises ?_
  rintro _ t ⟨n, rfl, ht⟩
  refine early.bind (P := fun stdio u => s.Since n.piped u) (early.onLeave
    (raising.ofExcept fun u hu => ?_) ((hdrop _).bind fun _ => hdrop _)
    ((hfinishes _).bind fun _ => hfinishes _)) fun stdio u hu => ?_
  · have hsu : s.Since n.piped u := by simpa using ht.trans hu
    exact hsu
  refine early.bind (P := fun p v => p.name = some plan.commandText ∧ s.Bears self p v ∧
    s.Since (n.piped ++ [.started p.pid]) v) (early.onLeave
      ((plan.fork_raises stdio false).returning fun r v h => ?_)
      ((hdrop _).bind fun _ => hdrop _) ((hfinishes _).bind fun _ => hfinishes _)) fun p v hv => ?_
  · have hsv := hu.trans h.since
    cases r with
    | ok p =>
      obtain ⟨hname, hbears⟩ := h.bears p rfl
      exact ⟨hname, hbears.before hu.toOnward, hsv⟩
    | error f => exact ⟨h.failed f rfl, n.piped, by simp [Table.PipeNumbers.piped], hsv⟩
  · obtain ⟨hname, hbears, hsv⟩ := hv
    refine World.Meets.lift_bind (Descriptor.dropAll_raises [(n.stdin, _), (n.stdout, _),
      (n.stderr, _)] (.refl v)) fun _ w hw x hx => ?_
    have hvx := hw.others hx
    exact ⟨n, rfl, hname, hbears.later hvx, by simpa using hsv.trans hvx⟩

def Table.PipeNumbers.deeds (n : PipeNumbers) (pid : Pid) : List Deed :=
  n.piped ++ [.started pid, .closed n.stdin, .closed n.stdout, .closed n.stderr, .closed n.feed,
    .waited pid, .drained n.output, .drained n.error, .closed n.output, .closed n.error]

/-- What a capture comes to: it has started no child, or it has waited for its child and read what
that has left to the end. The status of its child has been told to it or to nobody. -/
structure Offspring.Captures (s : Offspring) (command : String) (r : Except Failure String)
    (t : Offspring) : Prop where
  onward : s.Onward t
  ignoring_eq : t.ignoring = s.ignoring
  captured : (∃ f, r = .error f ∧ f.BeforeChild ∧ s.Barren t) ∨
    ∃ (n : Table.PipeNumbers) (p : ProcessHandle) (e : Death) (out err : String),
      p.name = some command ∧ s.fates p.pid = none ∧ t.deeds = s.deeds ++ n.deeds p.pid ∧
        if s.ignoring then t.fates p.pid = some (.discarded e) ∧ r = .error p.noChild
        else t.fates p.pid = some (.told e) ∧ r = e.captured command out err

theorem Executable.conclude_raises (plan : LaunchPlan) (p : ProcessHandle) (e : Death)
    (out err : Bytes) {R : Except Failure String → Offspring → Prop}
    (h : ∀ u, (World.offspring self).Others t u →
      R (e.captured plan.commandText (Text.decodeLossy out) (Text.decodeLossy err)) u) :
    (World.offspring self).Meets (raising self few R)
      (conclude plan p ((e.status p.pid).outcome false) out err).run t := by
  cases e with
  | exited code =>
    rw [show ((Death.exited code).status p.pid).outcome false = .ok code from rfl, conclude_ok]
    exact h
  | signaled signal core => exact h

theorem Executable.drain_conclude_raises {plan : LaunchPlan} {p : ProcessHandle}
    {n : Table.PipeNumbers} {rounds : Nat} {d : Descriptor} {e : Death}
    {ending : Except Failure Int} (hd : d.fd = none) (hfew : rounds ≤ s.supply → few)
    (hname : p.name = some plan.commandText)
    (hunborn : s.fates p.pid = none) (hst : s.Since (n.piped ++ [.started p.pid, .closed n.stdin,
      .closed n.stdout, .closed n.stderr, .closed n.feed, .waited p.pid]) t)
    (he : if s.ignoring then t.fates p.pid = some (.discarded e) ∧ ending = .error p.noChild
      else t.fates p.pid = some (.told e) ∧ ending = (e.status p.pid).outcome false) :
    (World.offspring self).Meets (raising self few (s.Captures plan.commandText))
      (({ StreamEnds.parent n with stdin := d } : StreamEnds).drain rounds >>= fun streams =>
        conclude plan p ending streams.1 streams.2).run t := by
  refine raising.bind (StreamEnds.drain_raises n rounds d hd (fun h => hfew (h.trans hst.supply))
    (.refl t)) (fun streams u hu => ?_) fun f u h => ?_
  · have hdeeds {v : Offspring} (hv : (World.offspring self).Others u v) :
        v.deeds = s.deeds ++ n.deeds p.pid := by
      simpa [Table.PipeNumbers.deeds] using (hst.trans (hu.2.others hv)).deeds_eq
    split at he
    · obtain ⟨hfate, rfl⟩ := he
      intro v hv
      have hsv := hst.trans (hu.2.others hv)
      refine ⟨hsv.toOnward, hsv.ignoring_eq, .inr ⟨n, p, e, "", "", hname, hunborn, hdeeds hv, ?_⟩⟩
      rw [if_pos ‹_›]
      exact ⟨(hu.2.others hv).settled hfate nofun, rfl⟩
    · obtain ⟨hfate, rfl⟩ := he
      refine conclude_raises plan p e streams.1 streams.2 fun v hv => ?_
      have hsv := hst.trans (hu.2.others hv)
      refine ⟨hsv.toOnward, hsv.ignoring_eq, .inr ⟨n, p, e, Text.decodeLossy streams.1,
        Text.decodeLossy streams.2, hname, hunborn, hdeeds hv, ?_⟩⟩
      rw [if_neg ‹_›]
      exact ⟨(hu.2.others hv).settled hfate nofun, rfl⟩
  · obtain ⟨streams, hstreams⟩ := h.1
    cases hstreams

theorem Executable.capture_raises (e : Executable) (params : List Bytes) (env : Option Environment)
    {rounds : Nat} (hfew : rounds ≤ s.supply → few) :
    (World.offspring self).Meets (raising self few
      (s.Captures (Text.decodeLossy (e.commandLine params))))
      (e.capture self params env rounds).run s := by
  unfold capture
  rw [planned_run]
  cases hplan : LaunchPlan.make e.program params env with
  | error f =>
    intro t ht
    have hst : s.Since [] t := .others (.refl s) ht
    exact ⟨hst.toOnward, hst.ignoring_eq,
      .inl ⟨f, rfl, (LaunchPlan.ofMarshalling_of_make hplan).beforeChild, .of_nil hst⟩⟩
  | ok plan =>
    have hcommand : plan.commandText = Text.decodeLossy (e.commandLine params) := by
      rw [LaunchPlan.commandText, (LaunchPlan.isFor_of_make hplan).commandLine_eq]
      rfl
    rw [← hcommand]
    refine raising.bind (startOnPipes_raises plan) (fun started t h => ?_) fun f t h => ?_
    · obtain ⟨process, _⟩ := started
      obtain ⟨n, rfl, hname, hbears, hst⟩ := h
      refine World.Meets.lift_bind (Descriptor.closeSafe_raises n.feed _ (.refl t)) ?_
      rintro _ u ⟨rfl, htu⟩
      have hsu := hst.trans htu
      have hjoin : (World.offspring self).Meets (raising self few (u.Joins process false))
          (process.join self false).run u :=
        process.join_raises false hbears.positive hbears.other
      -- a failed wait is no reason to leave: what it was told is kept for the end
      refine (World.meets_lift_bind _ _ _).mpr ((World.meets_leaving _ _ _ _).mpr
        (hjoin.settled.weaken (fun _ _ h => h) (fun ending v hv => ?_) (fun _ _ h => h.elim)
          fun _ h => h))
      intro w hw
      obtain ⟨e', he'⟩ := (hbears.later htu).awaited.joined (hv w hw).joined
      rw [hsu.ignoring_eq] at he'
      refine drain_conclude_raises rfl hfew hname hbears.unborn ?_ he'
      simpa using (hv w hw).since hsu hbears.unborn
    · obtain ⟨hf, ds, hds, hst⟩ := h
      exact ⟨hst.toOnward, hst.ignoring_eq, .inl ⟨f, rfl, hf, ds, hds, hst⟩⟩

end Pipes

section Files

open Contract (raising)

variable {self : Pid} {few : Prop} {s : Offspring}

theorem Executable.redirect_raises (e : Executable) (params : List Bytes)
    (env : Option Environment) (input output error : File) (perm : Mode) :
    (World.offspring self).Meets (raising self few fun r t =>
      (∃ ds, s.Since ds t) ∧ ∀ p, r = .ok p → s.Bears self p t)
      (e.redirect params env input output error perm).run s := by
  have hdrop (ds : List Descriptor) : (Descriptor.dropAll ds).Makes Call.Calm :=
    Descriptor.dropAll_makes (fun _ => trivial) ds
  have hfinishes (ds : List Descriptor) : (Descriptor.dropAll ds).Finishes :=
    Descriptor.dropAll_finishes ds
  have hcalm {α : Type} {p : Action α} {t : Offspring} (hp : p.run.Makes Call.Calm)
      (hfin : p.run.Finishes) (ht : s.Barren t) :
      (World.offspring self).Meets (raising self few fun _ u => s.Barren u) p.run t :=
    raising.calm hp hfin (fun _ _ hu => hu) ht
  have hnone {t : Offspring} {f : Failure} (ht : s.Barren t) :
      (∃ ds, s.Since ds t) ∧ ∀ p, Except.error f = .ok p → s.Bears self p t := by
    obtain ⟨ds, -, ht⟩ := ht
    exact ⟨⟨ds, ht⟩, nofun⟩
  have hopen (file : File) (flags : OpenFlags) :
      (Descriptor.openFile file flags perm).run.Makes Call.Calm :=
    Descriptor.openFile_makes trivial trivial (fun _ => trivial) fun _ => trivial
  have hopens (file : File) (flags : OpenFlags) :
      (Descriptor.openFile file flags perm).run.Finishes :=
    Descriptor.openFile_finishes file flags perm
  unfold redirect
  rw [planned_run]
  cases LaunchPlan.make e.program params env with
  | error f => exact fun t ht => hnone (.others (.refl s) ht)
  | ok plan =>
    refine raising.bind (hcalm (hopen _ _) (hopens _ _) (.refl s))
      (fun stdin t ht => ?_) fun _ _ h => hnone h
    refine raising.bind (hcalm ((hopen _ _).leaving (hdrop _))
      ((hopens _ _).leaving (hfinishes _)) ht) (fun stdout u hu => ?_) fun _ _ h => hnone h
    refine raising.bind (hcalm ((hopen _ _).leaving (hdrop _))
      ((hopens _ _).leaving (hfinishes _)) hu) (fun stderr v hv => ?_) fun _ _ h => hnone h
    refine raising.bind (hcalm ((Action.makes_ofExcept _).leaving (hdrop _))
      ((Action.ofExcept_finishes _).leaving (hfinishes _)) hv) (fun stdio w hw => ?_)
      fun _ _ h => hnone h
    obtain ⟨ds, hds, hw⟩ := hw
    refine raising.bind (R := fun r x => (∃ ds, s.Since ds x) ∧ ∀ p, r = .ok p → s.Bears self p x)
      (raising.onLeave ((plan.fork_raises stdio false).returning fun r x h => ?_) fun f x h => ?_)
      (fun p x h => ?_) fun _ _ h => h
    · exact ⟨⟨_, hw.trans h.since⟩, fun p hp => (h.bears p hp).2.before hw.toOnward⟩
    · obtain ⟨⟨es, hsx⟩, -⟩ := h
      refine raising.calm (hdrop _) (hfinishes _) (fun _ y hxy => ?_) (.refl x)
      obtain ⟨fs, -, hxy⟩ := hxy
      exact ⟨⟨_, hsx.trans hxy⟩, nofun⟩
    · obtain ⟨⟨es, hsx⟩, hbears⟩ := h
      refine World.Meets.lift_bind (P := fun _ y => x.Barren y)
        (raising.calm (hdrop _) (hfinishes _) (fun _ _ hy => hy) (.refl x)) ?_
      rintro _ y ⟨fs, -, hxy⟩
      refine (World.meets_log_bind _ _ _).mpr fun z hz => ?_
      have hxz := hxy.others hz
      exact ⟨⟨_, hsx.trans hxz⟩, fun q hq => Except.ok.inj hq ▸ (hbears p rfl).later hxz⟩

end Files

end OwnedHandles
