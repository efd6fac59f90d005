import OwnedHandles.Executable
import OwnedHandles.FifoConnection
import OwnedHandles.MappedFile
import OwnedHandles.Proofs.World

/-!
Which calls the operations can make at all. `Program.Makes` is about the tree of a program and not
about a world, so that one lemma for each operation serves every world: a program whose calls
leave some state alone leaves it alone (`Program.Makes.meets`).
-/

namespace OwnedHandles

def Call.SparesChildren : Call → Prop
  | .fork _ | .wait _ => False
  | _ => True

def Call.LaunchesNothing : Call → Prop
  | .fork _ | .exec .. => False
  | _ => True

def Call.KeepsSignals : Call → Prop
  | .setMask _ | .setDisposition .. => False
  | _ => True

/-- What the call opens is closed on exec, and what is closed on exec stays so. -/
def Call.KeepsPrivate : Call → Prop
  | .openFile _ flags _ => flags.has .closeOnExec = true
  | .duplicate .. | .setCloseOnExec .. => False
  | _ => True

def Call.CopiesFrom (fds : List Fd) : Call → Prop
  | .duplicate fd _ | .setCloseOnExec fd _ => fd ∈ fds
  | _ => True

structure Call.Ordinary (c : Call) : Prop where
  launchesNothing : c.LaunchesNothing
  keepsSignals : c.KeepsSignals
  keepsPrivate : c.KeepsPrivate

namespace Program

variable {α β : Type} {P : Call → Prop}

def Makes (P : Call → Prop) : Program α → Prop
  | .done _ | .abort _ | .unfinished => True
  | .note _ p => p.Makes P
  | .call c next => P c ∧ ∀ a, (next a).Makes P

@[simp] theorem makes_done (a : α) : (done a).Makes P := trivial

@[simp] theorem makes_abort (m : String) : (abort m : Program α).Makes P := trivial

@[simp] theorem makes_unfinished : (unfinished : Program α).Makes P := trivial

@[simp] theorem makes_note (e : Event) (p : Program α) : (note e p).Makes P ↔ p.Makes P := Iff.rfl

@[simp] theorem makes_call (c : Call) (next : c.Answer → Program α) :
    (call c next).Makes P ↔ P c ∧ ∀ a, (next a).Makes P := Iff.rfl

@[simp] theorem makes_ask (c : Call) : (ask c).Makes P ↔ P c := by
  simp [ask]

@[simp] theorem makes_log (e : Event) : (log e).Makes P := trivial

theorem Makes.mono {Q : Call → Prop} (hPQ : ∀ c, P c → Q c) {p : Program α} (hp : p.Makes P) :
    p.Makes Q := by
  induction p with
  | done a => trivial
  | abort m => trivial
  | unfinished => trivial
  | note e p ih => exact ih hp
  | call c next ih => exact ⟨hPQ c hp.1, fun a => ih a (hp.2 a)⟩

theorem Makes.bind {p : Program α} {f : α → Program β} (hp : p.Makes P)
    (hf : ∀ a, (f a).Makes P) : (p.bind f).Makes P := by
  induction p with
  | done a => exact hf a
  | abort m => trivial
  | unfinished => trivial
  | note e p ih => exact ih hp
  | call c next ih => exact ⟨hp.1, fun a => ih a (hp.2 a)⟩

theorem Makes.leaving {failed : α → Bool} {fin : Program Unit} {p : Program α}
    (hp : p.Makes P) (hfin : fin.Makes P) : (leaving failed fin p).Makes P := by
  induction p with
  | done a =>
    unfold Program.leaving
    split
    · exact hfin.bind fun _ => trivial
    · trivial
  | abort m => exact hfin.bind fun _ => trivial
  | unfinished => trivial
  | note e p ih => exact ih hp
  | call c next ih => exact ⟨hp.1, fun a => ih a (hp.2 a)⟩

theorem Makes.meets_keeping {σ : Type} {w : World σ} {q : Contract σ α} {I : σ → Prop}
    {p : Program α} {s : σ} (hp : p.Makes P) (hmoves : ∀ s t, w.moves s t → I s → I t)
    (hframe : ∀ s c a t, P c → w.answers s c a t → I s → I t)
    (hcalls : ∀ s c, I s → P c → q.calls s c) (hreturns : ∀ a s, I s → q.returns a s)
    (hbreaks : ∀ m s, I s → q.breaks m s) (hgivesUp : ∀ s, I s → q.givesUp s) (hs : I s) :
    w.Meets q p s := by
  induction p generalizing s with
  | done a => exact fun t ht => hreturns a t (ht.keeps hmoves hs)
  | abort m => exact fun t ht => hbreaks m t (ht.keeps hmoves hs)
  | unfinished => exact fun t ht => hgivesUp t (ht.keeps hmoves hs)
  | note e p ih => exact ih hp hs
  | call c next ih =>
    intro t ht
    have hI := ht.keeps hmoves hs
    exact ⟨hcalls t c hI hp.1, fun a u ha => ih a (hp.2 a) (hframe t c a u hp.1 ha hI)⟩

theorem Makes.meets {σ : Type} {w : World σ} {q : Contract σ α} {p : Program α} {s : σ}
    (hp : p.Makes P) (hothers : ∀ t, w.Others s t → t = s)
    (hframe : ∀ c a t, P c → w.answers s c a t → t = s) (hcalls : ∀ c, P c → q.calls s c)
    (hreturns : ∀ a, q.returns a s) (hbreaks : ∀ m, q.breaks m s) (hgivesUp : q.givesUp s) :
    w.Meets q p s := by
  refine hp.meets_keeping (I := (· = s)) (fun t u hm ht => ?_) (fun t c a u hc ha ht => ?_)
    (fun t c ht hc => ht ▸ hcalls c hc) (fun a t ht => ht ▸ hreturns a)
    (fun m t ht => ht ▸ hbreaks m) (fun t ht => ht ▸ hgivesUp) rfl
  · subst ht
    exact hothers u (.single hm)
  · subst ht
    exact hframe c a u hc ha

theorem Makes.meets_calls {σ : Type} {w : World σ} {q : Contract σ α} {p : Program α} {s : σ}
    (hp : p.Makes P) (hcalls : ∀ t c, P c → q.calls t c) (hreturns : ∀ a t, q.returns a t)
    (hbreaks : ∀ m t, q.breaks m t) (hgivesUp : ∀ t, q.givesUp t) : w.Meets q p s :=
  hp.meets_keeping (I := fun _ => True) (fun _ _ _ h => h) (fun _ _ _ _ _ _ h => h)
    (fun t c _ => hcalls t c) (fun a t _ => hreturns a t) (fun m t _ => hbreaks m t)
    (fun t _ => hgivesUp t) trivial

theorem Makes.meets_always {σ : Type} {w : World σ} {I : σ → Prop} {p : Program α} {s : σ}
    (hp : p.Makes P) (hmoves : ∀ s t, w.moves s t → I s → I t)
    (hframe : ∀ s c a t, P c → w.answers s c a t → I s → I t) (hs : I s) :
    w.Meets (.always I) p s :=
  hp.meets_keeping hmoves hframe (fun _ _ h _ => h) (fun _ _ h => h) (fun _ _ h => h)
    (fun _ h => h) hs

theorem Makes.meets_leaving {σ : Type} {answers : σ → (c : Call) → c.Answer → σ → Prop}
    {q : Contract σ α} {failed : α → Bool} {fin : Program Unit} {p : Program α} {s : σ}
    (hfin : fin.Makes P) (hframe : ∀ s c a t, P c → answers s c a t → t = s)
    (hcalls : ∀ s c, P c → q.calls s c) (hbreaks : ∀ m s, q.breaks m s)
    (hgivesUp : ∀ s, q.givesUp s) (hp : (World.alone answers).Meets q p s) :
    (World.alone answers).Meets q (Program.leaving failed fin p) s := by
  have hrest (a : α) (t : σ) (ha : q.returns a t) :
      (World.alone answers).Meets q (fin.bind fun _ => .done a) t := by
    rw [World.meets_bind]
    refine hfin.meets (fun u hu => (World.others_alone _).mp hu) (hframe t) (hcalls t)
      (fun _ u hu => ?_) (fun m => hbreaks m t) (hgivesUp t)
    exact (World.others_alone _).mp hu ▸ ha
  rw [World.meets_leaving]
  refine hp.weaken (fun _ _ h => h) (fun a t ha => ?_) (fun m t hm => ?_) (fun _ h => h)
  · cases hfailed : failed a with
    | true =>
      simp only [hfailed, if_true]
      exact hrest a t ha
    | false =>
      simp only [hfailed]
      exact fun u hu => (World.others_alone _).mp hu ▸ ha
  · apply (World.meets_bind q fin _).mpr
    exact hfin.meets (fun u hu => (World.others_alone _).mp hu) (hframe t) (hcalls t)
      (fun _ u _ => hbreaks m u) (fun m => hbreaks m t) (hgivesUp t)

end Program

namespace Action

variable {α β : Type} {P : Call → Prop}

theorem makes_bind {p : Action α} {f : α → Action β} (hp : p.run.Makes P)
    (hf : ∀ a, (f a).run.Makes P) : (p >>= f).run.Makes P := by
  rw [run_bind]
  apply hp.bind
  intro r
  cases r with
  | ok a => exact hf a
  | error e => trivial

theorem makes_lift {p : Program α} (hp : p.Makes P) : (ExceptT.lift p : Action α).run.Makes P :=
  hp.bind fun _ => trivial

theorem makes_ofExcept (r : Except Failure α) :
    (MonadExcept.ofExcept r : Action α).run.Makes P := by
  cases r <;> trivial

end Action

namespace Contract

variable {σ α β : Type}

def asking (calls : σ → Call → Prop) (P : α → σ → Prop) : Contract σ (Except Failure α) :=
  ⟨calls, fun r t => ∀ a, r = .ok a → P a t, fun _ _ => True, fun _ => True⟩

namespace asking

variable {w : World σ} {s : σ} {calls : σ → Call → Prop} {P : α → σ → Prop} {Q : β → σ → Prop}
  {C : Call → Prop}

theorem failed (e : Failure) : w.Meets (asking calls P) (.done (.error e)) s := fun _ _ => nofun

theorem bind {p : Action α} {f : α → Action β} (hp : w.Meets (asking calls P) p.run s)
    (hf : ∀ a t, P a t → w.Meets (asking calls Q) (f a).run t) :
    w.Meets (asking calls Q) (p >>= f).run s := by
  refine (World.meets_action_bind _ _ _).mpr (hp.returning fun r t ht => ?_)
  cases r with
  | ok a => exact hf a t (ht a rfl)
  | error e => exact failed e

theorem making {p : Action α} (hp : p.run.Makes C) (hC : ∀ t c, C c → calls t c)
    (h : ∀ a t, P a t) : w.Meets (asking calls P) p.run s :=
  hp.meets_calls hC (fun _ t a _ => h a t) (fun _ _ => trivial) fun _ => trivial

theorem onLeave {p : Action α} {fin : Program Unit} (hp : w.Meets (asking calls P) p.run s)
    (hfin : fin.Makes C) (hC : ∀ t c, C c → calls t c)
    (hP : ∀ a t u, P a t → w.Others t u → P a u) :
    w.Meets (asking calls P) (p.onLeave fin).run s := by
  refine (World.meets_leaving _ _ _ _).mpr (hp.weaken (fun _ _ h => h) (fun r t ht => ?_)
    (fun m t _ => ?_) (fun _ h => h))
  · cases r with
    | ok a => exact fun u hu b hb => hP b t u (ht b hb) hu
    | error e =>
      exact (World.meets_bind _ _ _).mpr (hfin.meets_calls hC (fun _ u => failed e)
        (fun _ _ => trivial) fun _ => trivial)
  · exact (World.meets_bind _ _ _).mpr (hfin.meets_calls hC (fun _ u v _ => trivial)
      (fun _ _ => trivial) fun _ => trivial)

theorem attempt {p : Action α} {fin : Program Unit} {R : Except Failure α → σ → Prop}
    {f : Except Failure α → Action β}
    (hp : w.Meets ⟨calls, R, fun _ _ => True, fun _ => True⟩ p.run s) (hfin : fin.Makes C)
    (hC : ∀ t c, C c → calls t c)
    (hf : ∀ r t, R r t → w.Meets (asking calls Q) (f r).run t) :
    w.Meets (asking calls Q) (ExceptT.lift (p.onAbort fin).attempt >>= f).run s := by
  refine (World.meets_lift_bind _ _ _).mpr ((World.meets_leaving _ _ _ _).mpr (hp.weaken
    (fun _ _ h => h) (fun r t hr => ?_) (fun m t _ => ?_) (fun _ h => h)))
  · exact fun u hu => (hf r t hr).others hu
  · exact (World.meets_bind _ _ _).mpr (hfin.meets_calls hC (fun _ u v _ => trivial)
      (fun _ _ => trivial) fun _ => trivial)

end asking

end Contract

namespace Descriptor

variable {P : Call → Prop}

theorem close_makes (hclose : ∀ fd, P (.close fd)) (d : Descriptor) : d.close.Makes P := by
  unfold close
  cases d.fd with
  | none => trivial
  | some fd =>
    refine ⟨hclose fd, fun a => ?_⟩
    cases a <;> trivial

theorem closeSafe_makes (hclose : ∀ fd, P (.close fd)) (d : Descriptor) :
    d.closeSafe.Makes P := by
  apply (d.close_makes hclose).bind
  intro r
  obtain ⟨r, d⟩ := r
  cases r <;> trivial

theorem drop_makes (hclose : ∀ fd, P (.close fd)) (d : Descriptor) : d.drop.Makes P := by
  unfold drop
  split
  · exact d.closeSafe_makes hclose
  · trivial

theorem dropAll_makes (hclose : ∀ fd, P (.close fd)) (ds : List Descriptor) :
    (dropAll ds).Makes P := by
  induction ds with
  | nil => trivial
  | cons d ds ih => exact (d.drop_makes hclose).bind fun _ => ih

theorem read_makes {d : Descriptor} {count : Nat}
    (hread : ∀ fd, d.fd = some fd → P (.read fd count)) : (d.read count).run.Makes P := by
  unfold read
  cases hd : d.fd with
  | none => trivial
  | some fd =>
    refine ⟨hread fd hd, fun a => ?_⟩
    cases a <;> trivial

theorem write_makes (hwrite : ∀ fd bs, P (.write fd bs)) (d : Descriptor) (data : Bytes) :
    (d.write data).run.Makes P := by
  unfold write
  cases d.fd with
  | none => trivial
  | some fd =>
    refine ⟨hwrite fd data, fun a => ?_⟩
    cases a <;> trivial

theorem readOn_makes {d : Descriptor}
    (hread : ∀ fd, d.fd = some fd → P (.read fd Limits.readChunk)) (rounds : Nat)
    (content : List Bytes) : (d.readOn rounds content).run.Makes P := by
  induction rounds generalizing content with
  | zero => trivial
  | succ rounds ih =>
    refine Action.makes_bind ?_ fun r => ?_
    · exact Action.makes_lift (read_makes hread)
    · split
      · trivial
      · exact ih _
      · exact ih _
      · trivial

theorem writeAll_makes (hwrite : ∀ fd bs, P (.write fd bs)) (d : Descriptor) (rounds : Nat)
    (data : Bytes) : (d.writeAll rounds data).run.Makes P := by
  induction rounds generalizing data with
  | zero => cases data <;> trivial
  | succ rounds ih =>
    cases data with
    | nil => trivial
    | cons b bs =>
      refine Action.makes_bind ?_ fun r => ?_
      · exact Action.makes_lift (d.write_makes hwrite _)
      · split
        · trivial
        · exact ih _
        · exact ih _
        · trivial

end Descriptor

theorem MappedFile.writePages_makes {P : Call → Prop} (hwrite : ∀ fd bs, P (.write fd bs))
    (d : Descriptor) (rounds pages : Nat) : (MappedFile.writePages d rounds pages).run.Makes P := by
  induction pages with
  | zero => trivial
  | succ pages ih => exact Action.makes_bind (d.writeAll_makes hwrite rounds _) fun _ => ih

theorem MappedFile.fill_makes {P : Call → Prop} (hwrite : ∀ fd bs, P (.write fd bs))
    (m : MappedFile) (d : Descriptor) (rounds : Nat) : (m.fill d rounds).run.Makes P := by
  unfold fill
  split
  · trivial
  · exact writePages_makes hwrite d rounds _

namespace FifoConnection

variable {P : Call → Prop}

theorem warnUnlessFifo_makes (hprobe : ∀ path, P (.probe path)) (c : FifoConnection) :
    c.warnUnlessFifo.run.Makes P := by
  refine Action.makes_bind (Action.makes_lift ?_) fun b => ?_
  · refine ⟨hprobe _, fun a => ?_⟩
    cases a with
    | none => trivial
    | some k => cases k <;> trivial
  · cases b <;> trivial

theorem readMessageFrom_makes (hread : ∀ fd n, P (.read fd n)) (hpause : ∀ ms, P (.pause ms))
    (d : Descriptor) (acceptEnd : Bool) (rounds : Nat) :
    (readMessageFrom d acceptEnd rounds).run.Makes P := by
  induction rounds with
  | zero => trivial
  | succ rounds ih =>
    apply Action.makes_bind (Descriptor.read_makes fun fd _ => hread fd _)
    intro data
    cases data with
    | nil =>
      cases acceptEnd with
      | true => trivial
      | false => exact Action.makes_bind ⟨hpause _, fun _ => trivial⟩ fun _ => ih
    | cons b bs => trivial

end FifoConnection

namespace ProcessHandle

theorem join_makes_own {P : Call → Prop} {p : ProcessHandle} (hwait : P (.wait p.pid)) (self : Pid)
    (strict : Bool) : (p.join self strict).run.Makes P := by
  unfold join
  split
  · trivial
  · refine Action.makes_bind ⟨hwait, fun _ => trivial⟩ fun a => ?_
    cases a <;> simp

theorem join_makes {P : Call → Prop} (hwait : ∀ pid, P (.wait pid)) (self : Pid)
    (p : ProcessHandle) (strict : Bool) : (p.join self strict).run.Makes P :=
  join_makes_own (hwait p.pid) self strict

end ProcessHandle

namespace BlockedSignals

variable {P : Call → Prop}

theorem blockAll_makes (hmask : ∀ m, P (.setMask m)) : blockAll.run.Makes P := by
  refine ⟨hmask _, fun a => ?_⟩
  cases a <;> trivial

theorem drop_makes (hmask : ∀ m, P (.setMask m)) (b : BlockedSignals) : b.drop.Makes P := by
  refine ⟨hmask _, fun a => ?_⟩
  cases a <;> trivial

theorem restore_makes (hmask : ∀ m, P (.setMask m)) (b : BlockedSignals) :
    b.restore.run.Makes P := by
  refine ⟨hmask _, fun a => ?_⟩
  cases a <;> trivial

theorem restoreLogged_makes (hmask : ∀ m, P (.setMask m)) (b : BlockedSignals) :
    b.restoreLogged.Makes P := by
  apply (b.restore_makes hmask).bind
  intro r
  cases r <;> trivial

end BlockedSignals

namespace LaunchPlan

variable {P : Call → Prop}

variable {p : LaunchPlan} {stdio : ChildStdio}

theorem forkBlocked_makes (hmask : ∀ m, P (.setMask m))
    (hfork : ∀ t, t.plan = p → t.stdio = stdio → P (.fork t)) (b : BlockedSignals)
    (detached : Bool) : (p.forkBlocked b stdio detached).run.Makes P := by
  refine ⟨hfork _ rfl rfl, fun a => ?_⟩
  cases a with
  | error e => exact Action.makes_bind (Action.makes_lift (b.drop_makes hmask)) fun _ => trivial
  | ok pid =>
    exact Action.makes_bind (Action.makes_lift (b.restoreLogged_makes hmask)) fun _ => trivial

theorem fork_makes {detached : Bool} (hmask : ∀ m, P (.setMask m))
    (hignore : detached = true → P (.setDisposition Signal.SIGCHLD.number .ignored))
    (hfork : ∀ t, t.plan = p → t.stdio = stdio → P (.fork t)) :
    (p.fork stdio detached).run.Makes P := by
  apply Action.makes_bind (BlockedSignals.blockAll_makes hmask)
  intro blocked
  cases detached with
  | false => exact forkBlocked_makes hmask hfork blocked false
  | true =>
    refine Action.makes_bind ?_ fun _ => forkBlocked_makes hmask hfork blocked true
    refine Program.Makes.leaving ?_ (blocked.drop_makes hmask)
    refine ⟨hignore rfl, fun a => ?_⟩
    cases a <;> trivial

end LaunchPlan

section Pipes

variable {P : Call → Prop}

theorem PipeEnds.openNamed_makes (hpipe : P .makePipe) (stream : String) :
    (PipeEnds.openNamed stream).run.Makes P := by
  refine ⟨hpipe, fun a => ?_⟩
  cases a <;> trivial

theorem PipeEnds.drop_makes (hclose : ∀ fd, P (.close fd)) (p : PipeEnds) : p.drop.Makes P :=
  Descriptor.dropAll_makes hclose _

namespace StreamEnds

theorem drop_makes (hclose : ∀ fd, P (.close fd)) (e : StreamEnds) : e.drop.Makes P :=
  Descriptor.dropAll_makes hclose _

theorem openPipes_makes (hpipe : P .makePipe) (hclose : ∀ fd, P (.close fd)) :
    openPipes.run.Makes P := by
  apply Action.makes_bind (PipeEnds.openNamed_makes hpipe _)
  intro stdin
  refine Action.makes_bind ?_ fun stdout => Action.makes_bind ?_ fun _ => trivial
  · exact (PipeEnds.openNamed_makes hpipe _).leaving (stdin.drop_makes hclose)
  · exact (PipeEnds.openNamed_makes hpipe _).leaving
      ((stdout.drop_makes hclose).bind fun _ => stdin.drop_makes hclose)

theorem closeCaptured_makes (hclose : ∀ fd, P (.close fd)) (ds : List Descriptor) :
    (closeCaptured ds).Makes P := by
  induction ds with
  | nil => trivial
  | cons d ds ih =>
    apply (d.close_makes hclose).bind
    intro r
    obtain ⟨r, d⟩ := r
    cases r <;> exact ih

theorem drain_makes (hclose : ∀ fd, P (.close fd)) (hread : ∀ fd n, P (.read fd n))
    (e : StreamEnds) (rounds : Nat) : (e.drain rounds).run.Makes P := by
  have hstream (d : Descriptor) (s : StreamEnds) :
      ((d.readToEnd rounds).onLeave s.drop).run.Makes P :=
    (Descriptor.readOn_makes (fun fd _ => hread fd _) rounds []).leaving (s.drop_makes hclose)
  apply Action.makes_bind (Action.makes_lift (e.stdin.closeSafe_makes hclose))
  intro stdin
  refine Action.makes_bind (hstream _ _) fun out => Action.makes_bind (hstream _ _) fun err => ?_
  exact Action.makes_bind (Action.makes_lift (closeCaptured_makes hclose _)) fun _ => trivial

end StreamEnds

end Pipes

theorem Descriptor.openFile_makes {P : Call → Prop} {file : File} {flags : OpenFlags} {perm : Mode}
    (hprobe : P (.probe file.path)) (hopen : P (.openFile file.path flags perm))
    (hmode : ∀ fd, P (.changeMode fd perm)) (hclose : ∀ fd, P (.close fd)) :
    (openFile file flags perm).run.Makes P := by
  refine ⟨hprobe, fun kind => ⟨hopen, fun a => ?_⟩⟩
  cases a with
  | error e => trivial
  | ok fd =>
    change Program.Makes P (ExceptT.run (if _ then _ else _))
    split
    · refine Action.makes_bind ⟨hmode fd, fun a => ?_⟩ fun _ => trivial
      cases a with
      | ok _ => trivial
      | error e =>
        exact Action.makes_bind (Action.makes_lift (Descriptor.drop_makes hclose _))
          fun _ => trivial
    · trivial

namespace ChildStdio

variable {P : Call → Prop}

def numbers : ChildStdio → List Fd
  | inherit => []
  | redirect stdin stdout stderr => [stdin, stdout, stderr]

theorem install_makes (pairs : List (Fd × Fd))
    (hflag : ∀ fd ∈ pairs.map Prod.fst, ∀ on, P (.setCloseOnExec fd on))
    (hduplicate : ∀ fd ∈ pairs.map Prod.fst, ∀ target, P (.duplicate fd target)) :
    (install pairs).Makes P := by
  induction pairs with
  | nil => trivial
  | cons pair pairs ih =>
    obtain ⟨fd, target⟩ := pair
    rw [List.map_cons, List.forall_mem_cons] at hflag hduplicate
    have hrest := ih hflag.2 hduplicate.2
    unfold install
    split
    · refine ⟨hflag.1 _, fun a => ?_⟩
      cases a with
      | ok _ => exact hrest
      | error e => trivial
    · refine ⟨hduplicate.1 _, fun a => ?_⟩
      cases a with
      | ok _ => exact hrest
      | error e => trivial

theorem closeAbove_makes (hclose : ∀ fd, P (.close fd)) (limit : Fd) (fds : List Fd) :
    (closeAbove limit fds).Makes P := by
  induction fds with
  | nil => trivial
  | cons fd fds ih =>
    unfold closeAbove
    split
    · exact ⟨hclose fd, fun _ => ih⟩
    · exact ih

theorem wire_makes {stdio : ChildStdio}
    (hflag : ∀ fd ∈ stdio.numbers, ∀ on, P (.setCloseOnExec fd on))
    (hduplicate : ∀ fd ∈ stdio.numbers, ∀ target, P (.duplicate fd target))
    (hclose : ∀ fd, P (.close fd)) : stdio.wire.Makes P := by
  cases stdio with
  | inherit => trivial
  | redirect stdin stdout stderr =>
    apply (install_makes [(stdin, 0), (stdout, 1), (stderr, 2)] hflag hduplicate).bind
    intro r
    cases r with
    | ok _ => exact (closeAbove_makes hclose 2 _).bind fun _ => trivial
    | error e => trivial

end ChildStdio

namespace ChildTask

variable {P : Call → Prop}

theorem writeParts_makes (hwrite : ∀ fd bs, P (.write fd bs)) (parts : List Bytes) :
    (writeParts parts).Makes P := by
  induction parts with
  | nil => trivial
  | cons part parts ih => exact ⟨hwrite 2 part, fun _ => ih⟩

theorem resetDispositions_makes (hdisposition : ∀ n d, P (.setDisposition n d)) (t : ChildTask) :
    t.resetDispositions.Makes P := by
  refine ⟨hdisposition _ _, fun _ => ⟨hdisposition _ _, fun _ => ?_⟩⟩
  split
  · exact ⟨hdisposition _ _, fun _ => trivial⟩
  · trivial

theorem report_makes (hwrite : ∀ fd bs, P (.write fd bs)) (t : ChildTask) (call : String)
    (e : Errno) : (t.report call e).Makes P :=
  writeParts_makes hwrite _

/-- What is left to do once the signals of the child are in order. -/
def become (t : ChildTask) : Program Empty := do
  match ← t.stdio.wire with
  | .error (call, e) => t.report call e
  | .ok () => t.report t.plan.execCall (← t.plan.exec)
  Program.ask (.exit Limits.execFailureStatus)

theorem main_eq (t : ChildTask) :
    t.main = t.resetDispositions.bind fun _ => .call (.setMask t.mask) fun _ => t.become := rfl

theorem become_makes {t : ChildTask}
    (hother : ∀ c, c.LaunchesNothing → c.KeepsSignals → c.CopiesFrom t.stdio.numbers → P c)
    (hexec : P (.exec t.plan.arguments t.plan.environment)) : t.become.Makes P := by
  have hreport (call : String) (e : Errno) :
      ((t.report call e).bind fun _ => Program.ask (.exit Limits.execFailureStatus)).Makes P :=
    (t.report_makes (fun _ _ => hother _ trivial trivial trivial) call e).bind fun _ =>
      ⟨hother _ trivial trivial trivial, fun a => nomatch a⟩
  apply (ChildStdio.wire_makes (fun _ h _ => hother _ trivial trivial h)
    (fun _ h _ => hother _ trivial trivial h) fun _ => hother _ trivial trivial trivial).bind
  intro r
  cases r with
  | error f => exact hreport f.1 f.2
  | ok _ => exact ⟨hexec, fun e => hreport _ e⟩

theorem main_makes {t : ChildTask}
    (hother : ∀ c, c.LaunchesNothing → c.CopiesFrom t.stdio.numbers → P c)
    (hexec : P (.exec t.plan.arguments t.plan.environment)) : t.main.Makes P :=
  (t.resetDispositions_makes fun _ _ => hother _ trivial trivial).bind fun _ =>
    ⟨hother _ trivial trivial, fun _ => become_makes (fun c hc _ => hother c hc) hexec⟩

end ChildTask

namespace Executable

variable {P : Call → Prop}

theorem startOnPipes_makes {plan : LaunchPlan} (hpipe : P .makePipe)
    (hclose : ∀ fd, P (.close fd)) (hmask : ∀ m, P (.setMask m))
    (hfork : ∀ t, t.plan = plan → P (.fork t)) : (startOnPipes plan).run.Makes P := by
  apply Action.makes_bind (StreamEnds.openPipes_makes hpipe hclose)
  intro ends
  have hleave : (ends.2.drop.bind fun _ => ends.1.drop).Makes P :=
    (ends.2.drop_makes hclose).bind fun _ => ends.1.drop_makes hclose
  refine Action.makes_bind ((Action.makes_ofExcept _).leaving hleave) fun stdio =>
    Action.makes_bind (Program.Makes.leaving ?_ hleave) fun process => ?_
  · exact LaunchPlan.fork_makes hmask nofun fun t ht _ => hfork t ht
  exact Action.makes_bind (Action.makes_lift (ends.1.drop_makes hclose)) fun _ => trivial

theorem conclude_makes (plan : LaunchPlan) (process : ProcessHandle)
    (ending : Except Failure Int) (out err : Bytes) :
    (conclude plan process ending out err).run.Makes P := by
  apply Action.makes_bind (Action.makes_ofExcept ending)
  intro status
  refine Action.makes_bind trivial fun _ => ?_
  split <;> trivial

theorem drain_conclude_makes (hclose : ∀ fd, P (.close fd)) (hread : ∀ fd n, P (.read fd n))
    (parent : StreamEnds) (rounds : Nat) (plan : LaunchPlan) (process : ProcessHandle)
    (ending : Except Failure Int) :
    (parent.drain rounds >>= fun streams =>
      conclude plan process ending streams.1 streams.2).run.Makes P :=
  Action.makes_bind (parent.drain_makes hclose hread rounds) fun streams =>
    conclude_makes plan process ending streams.1 streams.2

end Executable

end OwnedHandles
