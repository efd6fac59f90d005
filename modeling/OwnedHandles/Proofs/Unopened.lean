import OwnedHandles.Proofs.Endings
import OwnedHandles.Proofs.Openings
import OwnedHandles.Proofs.Storage

namespace OwnedHandles

open Kernel (State Sys)
open Kernel

section Composition

variable {α β : Type} {pid : Pid} {s : State} {P : Except Failure α → State → Prop}
  {R : Except Failure β → State → Prop}

theorem World.kernel_bind {p : Action α} {f : α → Action β}
    (hp : (World.kernel pid).Meets (.result P) p.run s)
    (hok : ∀ a t, P (.ok a) t → (World.kernel pid).Meets (.result R) (f a).run t)
    (herror : ∀ e t, P (.error e) t → R (.error e) t) :
    (World.kernel pid).Meets (.result R) (p >>= f).run s := by
  refine (World.meets_action_bind _ _ _).mpr (hp.returning fun r t ht => ?_)
  cases r with
  | ok a => exact hok a t ht
  | error e => exact World.alone_done (herror e t ht)

theorem World.kernel_onLeave {p : Action α} (ds : List Descriptor)
    (hp : (World.kernel pid).Meets (.result P) p.run s) :
    (World.kernel pid).Meets (.result fun r t => match r with
      | .ok _ => P r t
      | .error _ => ∃ u, P r u ∧ u.Alike t) (p.onLeave (Descriptor.dropAll ds)).run s := by
  refine (World.meets_leaving _ _ _ _).mpr (hp.weaken (fun _ _ h => h) (fun r t ht => ?_)
    (fun m t _ => ?_) fun _ h => h)
  · cases r with
    | ok a => exact World.alone_done ht
    | error e =>
      exact (World.meets_bind _ _ _).mpr ((Descriptor.dropAll_makes (fun _ => trivial) ds).alike
        fun _ u hu => World.alone_done ⟨t, ht, hu⟩)
  · exact (World.meets_bind _ _ _).mpr ((Descriptor.dropAll_makes (fun _ => trivial) ds).alike
      fun _ u hu v hv => trivial)

end Composition

namespace Kernel

variable {pid : Pid} {s t u : State} {path : Bytes} {flags : OpenFlags} {perm : Mode} {fd : Fd}
  {i : InodeId}

theorem State.Makes.alike (h : s.Makes t pid path perm) (h' : t.Alike u) :
    s.Makes u pid path perm := by
  obtain ⟨place, name, hplace, hnone, hname, hslashed, hfiles⟩ := h.files
  exact ⟨⟨place, name, hplace, hnone, hname, hslashed, h'.files.trans hfiles⟩,
    h.processes.trans h'.toSameProcesses⟩

theorem State.Alike.finds (h : s.Alike t) :
    (∃ i, Walk.find s pid true path = .ok i) ↔ ∃ i, Walk.find t pid true path = .ok i :=
  ⟨fun ⟨i, hi⟩ => ⟨i, Walk.find_of_files h.files h.toSameProcesses hi⟩,
    fun ⟨i, hi⟩ => ⟨i, Walk.find_of_files h.files.symm h.symm hi⟩⟩

theorem State.Makes.of_alike (hst : s.Alike t) (h : t.Makes u pid path perm) :
    s.Makes u pid path perm := by
  obtain ⟨place, name, hplace, hnone, hname, hslashed, hfiles⟩ := h.files
  have hplace' := Walk.place_of_files hst.files.symm hst.symm hplace
  obtain ⟨parent, entries, hd⟩ := Sys.directory_of_missing hplace' hnone
  rw [hst.toSameProcesses.groupIn hst.files] at hfiles
  exact ⟨⟨place, name, hplace', hnone, hname, hslashed,
    hfiles.trans (State.files_addNamed hst.files hd name _)⟩, hst.toSameProcesses.trans h.processes⟩

theorem Sys.Gives.alike (h : Sys.Gives s pid path flags fd t i)
    (htruncate : flags.has .truncate = false) (htemporary : flags.has .temporary = false)
    (hfound : ∃ i, Walk.find s pid true path = .ok i) : s.Alike t := by
  obtain ⟨u, hplaced, hfiles⟩ | ⟨-, htrunc, -⟩ := h.found_or_emptied
  · refine ⟨h.processes, hfiles.trans ?_⟩
    cases hplaced with
    | there | link => rfl
    | made _ _ hplace hnone =>
      obtain ⟨j, hj⟩ := hfound
      obtain ⟨p, hp, hexisting⟩ := Walk.find_eq_ok_iff.mp hj
      obtain rfl := Except.ok.inj (hplace.symm.trans hp)
      exact absurd (hnone.symm.trans (Walk.existing_eq_ok_iff.mp hexisting).1) nofun
    | unnamed htemp => exact absurd (htemporary.symm.trans htemp) nofun
  · exact absurd (htruncate.symm.trans htrunc) nofun

end Kernel

namespace Descriptor

variable {pid : Pid} {s t : State} {file : File} {perm : Mode} {r : Except Failure Descriptor}

theorem Leaves.of_reading (h : Leaves pid s file Executable.reading perm r t) :
    (∃ e, r = .error (.openFailed file.name e) ∧ t = s) ∨ ∃ d, r = .ok d ∧ s.Alike t := by
  have hcreates {fd i u} (hgives : Sys.Gives s pid file.path Executable.reading fd u i)
      (hnothing : ¬∃ i, Walk.find s pid true file.path = .ok i) : False := by
    obtain ⟨hcreate, -⟩ | ⟨hpath, -⟩ := hgives.of_nothing hnothing
    · exact absurd hcreate (by decide)
    · exact absurd hpath (by decide)
  cases h with
  | refused => exact .inl ⟨_, rfl, rfl⟩
  | unset hnothing hgives => exact (hcreates hgives hnothing).elim
  | kept _ hgives =>
    refine .inr ⟨_, rfl, ?_⟩
    by_cases hfound : ∃ i, Walk.find s pid true file.path = .ok i
    · exact hgives.alike (by decide) (by decide) hfound
    · exact (hcreates hgives hfound).elim
  | set hnothing hgives => exact (hcreates hgives hnothing).elim

inductive ForWriting (pid : Pid) (s : State) (file : File) (perm : Mode) :
    Except Failure Descriptor → State → Prop
  | refused {e} : ForWriting pid s file perm (.error (.openFailed file.name e)) s
  | unset {e mode t} : s.Makes t pid file.path mode →
      ForWriting pid s file perm (.error (.callFailed "fchmod" ("on file " ++ file.name) e)) t
  | found {d t} : (∃ i, Walk.find s pid true file.path = .ok i) → s.Alike t →
      ForWriting pid s file perm (.ok d) t
  | made {d t} : (¬∃ i, Walk.find s pid true file.path = .ok i) →
      s.Makes t pid file.path (t.granted pid s.inodes.size perm) →
      ForWriting pid s file perm (.ok d) t

theorem Leaves.forWriting (hpid : (s.process? pid).isSome)
    (h : Leaves pid s file Executable.writing perm r t) : ForWriting pid s file perm r t := by
  have hmakes {fd i u} (hgives : Sys.Gives s pid file.path Executable.writing fd u i)
      (hnothing : ¬∃ i, Walk.find s pid true file.path = .ok i) :
      i = s.inodes.size ∧ ∃ mode, s.Makes u pid file.path mode := by
    obtain ⟨-, -, hi, hmade⟩ | ⟨hpath, -⟩ := hgives.of_nothing hnothing
    · exact ⟨hi, hmade⟩
    · exact absurd hpath (by decide)
  cases h with
  | refused => exact .refused
  | unset hnothing hgives halike =>
    obtain ⟨-, mode, hmade⟩ := hmakes hgives hnothing
    exact .unset (hmade.alike halike)
  | kept hcreate hgives =>
    have hfound := hcreate (by decide)
    exact .found hfound (hgives.alike (by decide) (by decide) hfound)
  | set hnothing hgives hf =>
    obtain rfl := Option.some.inj ((hgives.file hpid).symm.trans hf)
    obtain ⟨rfl, mode, hmade⟩ := hmakes hgives hnothing
    refine .made hnothing ?_
    rw [State.granted_setMode]
    exact hmade.setMode _

end Descriptor

section Starting

open OwnedHandles.Action

def Failure.OfStarting : Failure → Prop
  | .callFailed call _ _ => call ∈ ["dup2", "pthread_sigmask", "fork"]
  | _ => False

theorem Failure.OfStarting.not_ofOpening {f : Failure} {name : String} (h : f.OfStarting) :
    ¬f.OfOpening name := by
  rintro ⟨e, rfl | rfl⟩
  · exact h
  · simp [OfStarting] at h

theorem ChildStdio.ofDescriptors_starting (stdin stdout stderr : Descriptor) :
    Failure.Outcome (fun _ => True) Failure.OfStarting (ofDescriptors stdin stdout stderr) := by
  have hone (d : Descriptor) :
      Failure.Outcome (fun _ => True) Failure.OfStarting (descriptorFor d) := by
    unfold descriptorFor
    cases d.fd with
    | none => exact .head _
    | some fd => trivial
  exact (hone _).bind fun _ _ => (hone _).bind fun _ _ => (hone _).bind fun _ _ => trivial

theorem LaunchPlan.fork_starting (plan : LaunchPlan) (stdio : ChildStdio) :
    (plan.fork stdio false).EndsIn (fun _ => True) Failure.OfStarting := by
  refine EndsIn.andThen (R := fun _ => True) ?_ fun blocked => ?_
  · exact (endsIn_ask _).andThen fun _ =>
      (endsIn_orFail (fun _ => by simp [Failure.OfStarting]) _).andThen fun _ => endsIn_pure trivial
  · refine (endsIn_ask _).andThen fun r => ?_
    cases r with
    | error e =>
      exact (endsIn_perform _).andThen fun _ => endsIn_throw (by simp [Failure.OfStarting])
    | ok pid =>
      exact (endsIn_perform _).andThen fun _ => (endsIn_log _).andThen fun _ => endsIn_pure trivial

end Starting

namespace Executable

open Kernel.Walk (find)

variable {pid : Pid} {s t u : State} {input output error : File} {perm : Mode}

/-- The output file is open: it was there, or it is all that is new. -/
def HasOutput (pid : Pid) (s : State) (output : File) (perm : Mode) (t : State) : Prop :=
  (∃ i, find s pid true output.path = .ok i) ∧ s.Alike t ∨
    (¬∃ i, find s pid true output.path = .ok i) ∧
      s.Makes t pid output.path (t.granted pid s.inodes.size perm)

/-- What a redirection leaves when it ends with a failure to open one of its files. -/
inductive Unopened (pid : Pid) (s : State) (input output error : File) (perm : Mode) :
    Failure → State → Prop
  | input {e t} : s.Alike t → Unopened pid s input output error perm (.openFailed input.name e) t
  | output {e t} : s.Alike t →
      Unopened pid s input output error perm (.openFailed output.name e) t
  | outputMode {e mode t} : s.Makes t pid output.path mode →
      Unopened pid s input output error perm
        (.callFailed "fchmod" ("on file " ++ output.name) e) t
  | error {e t} : HasOutput pid s output perm t →
      Unopened pid s input output error perm (.openFailed error.name e) t
  | errorMode {e mode t u} : HasOutput pid s output perm t → t.Makes u pid error.path mode →
      Unopened pid s input output error perm
        (.callFailed "fchmod" ("on file " ++ error.name) e) u

theorem HasOutput.alike (h : HasOutput pid s output perm t) (h' : t.Alike u) :
    HasOutput pid s output perm u :=
  h.imp (.imp_right fun h => h.trans h') (.imp_right fun h => by
    rw [h'.toSameProcesses.granted h'.files]
    exact h.alike h')

theorem HasOutput.sameProcesses (h : HasOutput pid s output perm t) : s.SameProcesses t := by
  obtain ⟨-, h⟩ | ⟨-, h⟩ := h
  · exact h.toSameProcesses
  · exact h.processes

theorem HasOutput.of_alike (hst : s.Alike t) (h : HasOutput pid t output perm u) :
    HasOutput pid s output perm u := by
  unfold HasOutput
  rw [hst.finds, ← State.size_of_files hst.files]
  exact h.imp (.imp_right fun h => hst.trans h) (.imp_right fun h => h.of_alike hst)

theorem Unopened.sameProcesses {f : Failure} (h : Unopened pid s input output error perm f t) :
    s.SameProcesses t := by
  cases h with
  | input h | output h => exact h.toSameProcesses
  | outputMode h => exact h.processes
  | error h => exact h.sameProcesses
  | errorMode h h' => exact h.sameProcesses.trans h'.processes

theorem hasOutput_of_forWriting {d : Descriptor}
    (h : Descriptor.ForWriting pid s output perm (.ok d) t) : HasOutput pid s output perm t := by
  cases h with
  | found hfound halike => exact .inl ⟨hfound, halike⟩
  | made hnothing hmade => exact .inr ⟨hnothing, hmade⟩

theorem redirect_leaves (e : Executable) (params : List Bytes) (env : Option Environment)
    (input output error : File) (perm : Mode) (hpid : (s.process? pid).isSome) :
    (World.kernel pid).Meets (.result fun r t => ∀ f name, r = .error f → f.OfOpening name →
      Unopened pid s input output error perm f t)
      (e.redirect params env input output error perm).run s := by
  refine World.kernel_bind (P := fun r t => LaunchPlan.make e.program params env = r ∧ t = s)
    ?plan (fun plan t ht => ?planned) fun f t ht => ?unplanned
  case plan =>
    rw [Executable.plan, Action.run_ofExcept]
    exact World.alone_done ⟨rfl, rfl⟩
  case unplanned =>
    rintro _ name ⟨⟩ ⟨errno, rfl | rfl⟩ <;> exact (LaunchPlan.ofMarshalling_of_make ht.1).elim
  obtain ⟨-, rfl⟩ := ht
  refine World.kernel_bind (Descriptor.openFile_leaves _ _ _ _ _) (fun stdin u hu => ?input)
    fun f u hu => ?noInput
  case noInput =>
    rintro _ name ⟨⟩ -
    obtain ⟨errno, hf, rfl⟩ | ⟨d, hd, -⟩ := hu.of_reading
    · obtain rfl := Except.error.inj hf
      exact .input (.refl u)
    · cases hd
  have hinput : t.Alike u := by
    obtain ⟨errno, hf, -⟩ | ⟨d, -, halike⟩ := hu.of_reading
    · cases hf
    · exact halike
  refine World.kernel_bind (World.kernel_onLeave _ (Descriptor.openFile_leaves _ _ _ _ _))
    (fun stdout v hv => ?output) fun f v hv => ?noOutput
  case noOutput =>
    rintro _ name ⟨⟩ -
    obtain ⟨w, hw, hwv⟩ := hv
    cases hw.forWriting (hinput.stays hpid) with
    | refused => exact .output (hinput.trans hwv)
    | unset hmade => exact .outputMode ((hmade.of_alike hinput).alike hwv)
  have houtput : HasOutput pid t output perm v :=
    (hasOutput_of_forWriting (hv.forWriting (hinput.stays hpid))).of_alike hinput
  have hpid' : (v.process? pid).isSome := (houtput.sameProcesses.isSome pid).trans hpid
  refine World.kernel_bind (World.kernel_onLeave _ (Descriptor.openFile_leaves _ _ _ _ _))
    (fun stderr w hw => ?error) fun f w hw => ?noError
  case noError =>
    rintro _ name ⟨⟩ -
    obtain ⟨x, hx, hxw⟩ := hw
    cases hx.forWriting hpid' with
    | refused => exact .error (houtput.alike hxw)
    | unset hmade => exact .errorMode houtput (hmade.alike hxw)
  refine (Program.EndsIn.meets (R := Failure.Outcome (fun _ => True) Failure.OfStarting) ?_).weaken
    (fun _ _ h => h) (fun r x hr f name hrf hf => ?_) (fun _ _ h => h) fun _ h => h
  · exact (Action.endsIn_ofExcept (ChildStdio.ofDescriptors_starting _ _ _)).onLeave.andThen
      fun stdio => (plan.fork_starting stdio).onLeave.andThen fun _ =>
      (Action.endsIn_perform _).andThen fun _ => (Action.endsIn_log _).andThen fun _ =>
      Action.endsIn_pure trivial
  · subst hrf
    exact (hr.not_ofOpening hf).elim

/-- A redirection that can not open one of its files starts no child. All that it may leave is a
file that it has made: one that did not get its permissions, or the output file when the error file
is at fault. -/
theorem redirect_unopened {e : Executable} {params : List Bytes} {env : Option Environment}
    {f : Failure} {name : String} (hpid : (s.process? pid).isSome)
    (h : (World.kernel pid).Returns (e.redirect params env input output error perm).run s
      (.error f) t) (hf : f.OfOpening name) :
    s.SameProcesses t ∧ Unopened pid s input output error perm f t := by
  have hleft := (redirect_leaves e params env input output error perm hpid).returns h f name rfl hf
  exact ⟨hleft.sameProcesses, hleft⟩

def shelved (input output error : Bytes) : Action ProcessHandle :=
  redirect ⟨⟨Bytes.ofString "/bin/cat"⟩⟩ [] none ⟨input⟩ ⟨output⟩ ⟨error⟩ 0o600

/-- Without its input a redirection makes nothing. -/
theorem redirect_unopened_of_no_input : ∃ t,
    (World.kernel 1).Returns (shelved [110] [111] [101]).run Descriptor.shelf
      (.error (.openFailed "n" .ENOENT)) t ∧ Descriptor.shelf.SameProcesses t ∧
      Unopened 1 Descriptor.shelf ⟨[110]⟩ ⟨[111]⟩ ⟨[101]⟩ 0o600 (.openFailed "n" .ENOENT) t := by
  have hallows : ∃ t, (World.kernel 1).Allows Descriptor.shelf [⟨.probe [110], none⟩,
      ⟨.openFile [110] reading 0o600, .error .ENOENT⟩] t :=
    ⟨_, .answer (.inl (by cbv)) (.answer (.inl (by cbv)) (.nil _))⟩
  obtain ⟨t, hallows⟩ := hallows
  have hreturns := hallows.returns (p := (shelved [110] [111] [101]).run)
    (a := .error (.openFailed "n" .ENOENT)) (by decide +kernel)
  exact ⟨t, hreturns, redirect_unopened rfl hreturns ⟨_, .inl rfl⟩⟩

/-- Without the directory for its error file a redirection leaves a new output file behind. -/
theorem redirect_leaves_output : ∃ t,
    (World.kernel 1).Returns (shelved [109] [111] [100, 47, 101]).run Descriptor.shelf
      (.error (.openFailed "d/e" .ENOENT)) t ∧
      find Descriptor.shelf 1 true [111] = .error .ENOENT ∧ find t 1 true [111] = .ok 3 ∧
      t.mode 3 = 0o600 := by
  have hallows : ∃ t, (World.kernel 1).Allows Descriptor.shelf [⟨.probe [109], some .regular⟩,
      ⟨.openFile [109] reading 0o600, .ok 0⟩, ⟨.probe [111], none⟩,
      ⟨.openFile [111] writing 0o600, .ok 1⟩, ⟨.changeMode 1 0o600, .ok ()⟩,
      ⟨.probe [100, 47, 101], none⟩, ⟨.openFile [100, 47, 101] writing 0o600, .error .ENOENT⟩,
      ⟨.close 1, .ok ()⟩, ⟨.close 0, .ok ()⟩] t ∧ find t 1 true [111] = .ok 3 ∧
      t.mode 3 = 0o600 :=
    ⟨_, .answer (.inl (by cbv)) (.answer (.inl (by cbv)) (.answer (.inl (by cbv))
      (.answer (.inl (by cbv)) (.answer (.inl (by cbv)) (.answer (.inl (by cbv))
      (.answer (.inl (by cbv)) (.answer (.inl (by cbv)) (.answer (.inl (by cbv))
      (.nil _))))))))), by cbv, by cbv⟩
  obtain ⟨t, hallows, hleads, hmode⟩ := hallows
  exact ⟨t, hallows.returns (by decide +kernel), by cbv, hleads, hmode⟩

end Executable

end OwnedHandles
