import Mathlib
import OwnedHandles.Proofs.SpelledLaunches

namespace OwnedHandles

open Kernel (State)

open Kernel.Exec (SameTarget resolve scriptDepth)

open Kernel.Walk (Spelled ending find pathLimit search)

def Kernel.State.SearchesAt (s : State) (pid : Pid) (path : Bytes) : Prop :=
  ∃ i found, find s pid true path = .ok i ∧ search s i = .ok found

namespace File

variable {f g : File} {pid : Pid} {s : State}

structure FoundAlike (pid : Pid) (s : State) (opens : OpenFlags → Prop) (f g : File) : Prop where
  leadsSomewhere : (s.run (State.answerAlone pid) [] f.leadsSomewhere).Like (· = ·)
    (s.run (State.answerAlone pid) [] g.leadsSomewhere)
  isFifo : (s.run (State.answerAlone pid) [] f.isFifo).Like (· = ·)
    (s.run (State.answerAlone pid) [] g.isFifo)
  openFile (flags : OpenFlags) (perm : Mode) : opens flags →
    (s.run (State.answerAlone pid) [] (Descriptor.openFile f flags perm).run).Like
      (Result.Like Descriptor.Alike)
      (s.run (State.answerAlone pid) [] (Descriptor.openFile g flags perm).run)

structure Interchangeable (pid : Pid) (s : State) (f g : File) : Prop
    extends FoundAlike pid s (fun _ => True) f g where
  remove : (s.run (State.answerAlone pid) [] f.remove.run).Like (Result.Like (· = ·))
    (s.run (State.answerAlone pid) [] g.remove.run)

theorem interchangeable (h : Spelled f.path g.path) (hending : ending f.path = ending g.path) :
    Interchangeable pid s f g := by
  have hfind : find s pid true f.path = find s pid true g.path :=
    Kernel.Sys.find_of_agree ((h.place_agree hending).weaken False.elim)
  refine ⟨⟨leadsSomewhere_like hfind, isFifo_like hfind, fun flags perm _ => ?_⟩, ?_⟩
  · exact Descriptor.openFile_like hfind (Kernel.Sys.openFile_agree h.check_eq
      ((Kernel.Sys.opening_agree h hending).weaken fun _ => trivial))
  · exact remove_like (Kernel.Sys.unlink_agree (h.entry_agree hending))

theorem foundAlike_of_directory (h : Spelled f.path g.path) (hs : s.SearchesAt pid f.path) :
    FoundAlike pid s (fun flags => flags.has .create = false ∧ flags.has .noFollow = false)
      f g := by
  obtain ⟨i, found, hi, hsearch⟩ := hs
  have hfind := Kernel.Sys.find_of_agree (h.directory_agree hi hsearch)
  refine ⟨leadsSomewhere_like hfind, isFifo_like hfind, fun flags perm hflags => ?_⟩
  obtain ⟨hcreate, hfollow⟩ := hflags
  have heffective : (Kernel.Sys.effectiveFlags flags).has .create = false := by
    by_contra hno
    rw [Bool.not_eq_false] at hno
    exact absurd ((Kernel.Sys.has_of_effective (by decide) hno).1.symm.trans hcreate) nofun
  have heffective' : (Kernel.Sys.effectiveFlags flags).has .noFollow = false :=
    (Kernel.Sys.effective_has (by decide)).trans hfollow
  exact Descriptor.openFile_like hfind (Kernel.Sys.openFile_agree h.check_eq
    (Kernel.Sys.opening_directory h hi hsearch heffective heffective'))

end File

namespace Executable

variable {e e' : Executable} {pid : Pid} {s : State}

/-- Either name is run as the same program, if it is run at all. -/
def RunsAlike (pid : Pid) (s : State) (e e' : Executable) : Prop :=
  ∀ params env, SameTarget e.program e'.program
    (resolve s pid scriptDepth e.program (e.program :: params) env)
    (resolve s pid scriptDepth e'.program (e'.program :: params) env)

theorem route_program (h : e.same e' = true) :
    Route.ofPath e.program = Route.ofPath e'.program := by
  have hroute : Route.ofPath e.file.path = Route.ofPath e'.file.path := File.same_iff.mp h
  change Route.ofPath (Text.reencode e.file.path) = Route.ofPath (Text.reencode e'.file.path)
  rw [Text.ofPath_reencode, Text.ofPath_reencode, hroute]

theorem runsAlike (h : e.same e' = true)
    (hlong : e.program.length < pathLimit ↔ e'.program.length < pathLimit)
    (hs : ending e.file.path = ending e'.file.path ∨ s.SearchesAt pid e.program) :
    RunsAlike pid s e e' := by
  have hspelled : Spelled e.program e'.program := ⟨route_program h, hlong⟩
  have hfind : find s pid true e.program = find s pid true e'.program := by
    apply Kernel.Sys.find_of_agree
    obtain hending | ⟨i, found, hi, hsearch⟩ := hs
    · refine (hspelled.place_agree ?_).weaken False.elim
      change ending (Text.reencode _) = ending (Text.reencode _)
      rw [Text.ending_reencode, Text.ending_reencode, hending]
    · exact hspelled.directory_agree hi hsearch
  exact fun params env => Kernel.Exec.resolve_like scriptDepth (Kernel.Exec.program_congr hfind)
    .program (.cons .program (List.forall₂_same.mpr fun x _ => .same x))

end Executable

/-- Files that are the same and whose paths end alike are interchangeable, if both paths are short
enough or neither is: it makes no difference which of them is looked up, opened or removed, nor
which of them is launched, but for how it is named. Where they lead to a directory that may be
searched, finding it, opening it as it is and executing it do not depend on the ending either. -/
theorem File.same_interchangeable {f g : File} (hsame : f.same g = true)
    (hlong : f.path.length < pathLimit ↔ g.path.length < pathLimit) :
    (∀ pid s, ending f.path = ending g.path → Interchangeable pid s f g) ∧
    (∀ pid s, s.SearchesAt pid f.path →
      FoundAlike pid s (fun flags => flags.has .create = false ∧ flags.has .noFollow = false)
        f g) ∧
    (Executable.mk f).LaunchesLike ⟨g⟩ ∧
    (∀ t t', ChildTask.Renamed (Executable.mk f).program (Executable.mk g).program t t' →
      t.main.Like (Call.Renamed (Executable.mk f).program (Executable.mk g).program) (· = ·)
        t'.main) ∧
    (((Executable.mk f).program.length < pathLimit ↔ (Executable.mk g).program.length < pathLimit) →
      ∀ pid s, ending f.path = ending g.path ∨ s.SearchesAt pid (Executable.mk f).program →
        Executable.RunsAlike pid s ⟨f⟩ ⟨g⟩) := by
  have hspelled : Spelled f.path g.path := ⟨same_iff.mp hsame, hlong⟩
  have hroute := Executable.route_program (show (Executable.mk f).same ⟨g⟩ = true from hsame)
  refine ⟨fun pid s => interchangeable hspelled, fun pid s => foundAlike_of_directory hspelled,
    Executable.launchesLike ?_, fun t t' => ChildTask.main_like,
    fun hprogram pid s => Executable.runsAlike hsame hprogram⟩
  rw [Route.zero_mem_iff, hroute, ← Route.zero_mem_iff]

namespace File

def home : State where
  inodes := #[⟨.directory 0 [([109], 1), ([100], 2), ([116], 3)], 0o755, 0⟩,
    ⟨.regular ⟨#[]⟩ .empty, 0o644, 0⟩, ⟨.directory 0 [], 0o755, 0⟩, ⟨.tool .success, 0o755, 0⟩]
  processes := [{ pid := 1, parent := 0 }]

theorem searchesAt_home : home.SearchesAt 1 [100] := ⟨2, (0, []), by cbv, by cbv⟩

/-- `d/../m` and `d//.././m`, then `d` and `d/.`, then `/t` and `//t`. -/
theorem same_interchangeable_home :
    Interchangeable 1 home ⟨[100, 47, 46, 46, 47, 109]⟩
      ⟨[100, 47, 47, 46, 46, 47, 46, 47, 109]⟩ ∧
    FoundAlike 1 home (fun flags => flags.has .create = false ∧ flags.has .noFollow = false)
      ⟨[100]⟩ ⟨[100, 47, 46]⟩ ∧
    (Executable.mk ⟨[47, 116]⟩).LaunchesLike ⟨⟨[47, 47, 116]⟩⟩ ∧
    Executable.RunsAlike 1 home ⟨⟨[47, 116]⟩⟩ ⟨⟨[47, 47, 116]⟩⟩ := by
  have hname := (same_interchangeable (f := ⟨[100, 47, 46, 46, 47, 109]⟩)
    (g := ⟨[100, 47, 47, 46, 46, 47, 46, 47, 109]⟩) (by decide) (by decide)).1
  have hdirectory := (same_interchangeable (f := ⟨[100]⟩) (g := ⟨[100, 47, 46]⟩) (by decide)
    (by decide)).2.1
  obtain ⟨-, -, hlaunches, -, hruns⟩ := same_interchangeable (f := ⟨[47, 116]⟩)
    (g := ⟨[47, 47, 116]⟩) (by decide) (by decide)
  exact ⟨hname 1 home (by decide), hdirectory 1 home searchesAt_home, hlaunches,
    hruns (by decide +kernel) 1 home (.inl (by decide))⟩

theorem not_interchangeable {f g : File} {pid : Pid} {s : State}
    (hf : (s.run (State.answerAlone pid) [] f.leadsSomewhere).outcome = .done true)
    (hg : (s.run (State.answerAlone pid) [] g.leadsSomewhere).outcome = .done false) :
    ¬Interchangeable pid s f g := by
  intro h
  have houtcome := h.leadsSomewhere.outcome
  rw [hf, hg] at houtcome
  cases houtcome with
  | done h => cases h

theorem find_long {pid : Pid} {s : State} {path : Bytes} (h : pathLimit ≤ path.length) :
    ∃ e, find s pid true path = .error e := by
  have hcheck : ∃ e, Kernel.Walk.check path = .error e := by
    unfold Kernel.Walk.check
    split_ifs with hzero hempty
    · exact ⟨_, rfl⟩
    · exact ⟨_, rfl⟩
    · exact ⟨_, rfl⟩
  obtain ⟨e, he⟩ := hcheck
  refine ⟨e, ?_⟩
  simp only [find, Kernel.Walk.place, he]
  rfl

theorem leadsSomewhere_of_error {f : File} {pid : Pid} {s : State} {e : Errno}
    (h : find s pid true f.path = .error e) :
    (s.run (State.answerAlone pid) [] f.leadsSomewhere).outcome = .done false := by
  have hnothing : (Kernel.Sys.probe pid f.path).Ensures s fun r t => r = .ok none ∧ t = s := by
    refine Kernel.Sys.probe_ensures.weaken ?_
    rintro r t ⟨rfl, kind, rfl, hkind⟩
    simp only [h, reduceCtorEq, exists_false, iff_false, Bool.not_eq_true,
      Option.isSome_eq_false_iff, Option.isNone_iff_eq_none] at hkind
    exact ⟨congrArg Except.ok hkind, rfl⟩
  have hprobe : (Kernel.Sys.probe pid f.path).run s = (.ok none, s) :=
    Prod.ext hnothing.1 hnothing.2
  have hanswer : s.answerAlone pid (.probe f.path) = .answered none s := by
    change Kernel.Reply.ofSys (c := .probe f.path) s (Kernel.Sys.probe pid f.path)
      (fun r => r.toOption.join) = _
    unfold Kernel.Reply.ofSys
    rw [hprobe]
    rfl
  change (s.run _ [] (.call (.probe f.path) fun kind => .done kind.isSome)).outcome = _
  unfold State.run
  rw [hanswer]
  rfl

def load : List Bytes :=
  List.replicate 16 (List.replicate 131000 97) ++ [List.replicate 988 97]

theorem fits_load {name : Bytes} :
    Kernel.Exec.fits (name :: load) [] = true ↔ name.length ≤ 2 := by
  have hlong : (List.replicate 131000 (97 : UInt8)).length = 131000 := List.length_replicate
  have hrest : (List.replicate 988 (97 : UInt8)).length = 988 := List.length_replicate
  unfold load
  -- With the strings spelled out there would be two million bytes to count.
  generalize List.replicate 131000 (97 : UInt8) = long at *
  generalize List.replicate 988 (97 : UInt8) = rest at *
  simp only [Kernel.Exec.fits, List.replicate, List.cons_append, List.nil_append, List.append_nil,
    List.foldl_cons, List.foldl_nil, List.all_cons, List.all_nil, Bool.and_eq_true,
    decide_eq_true_eq, and_true, hlong, hrest]
  simp only [Kernel.Exec.stringLimit, Kernel.Exec.totalLimit, Kernel.Exec.pointerSize,
    ArgumentArray.pointerSize]
  omega

/-- `m` is a file and `m/` is nothing; `/m` is a file, and nothing with more slashes before it than
a path may have; and `/t` is run with arguments that are too many for `//t`. -/
theorem same_not_interchangeable :
    ((⟨[109]⟩ : File).same ⟨[109, 47]⟩ = true ∧
      ¬Interchangeable 1 home ⟨[109]⟩ ⟨[109, 47]⟩) ∧
    ((⟨[47, 109]⟩ : File).same ⟨List.replicate 4095 47 ++ [109]⟩ = true ∧
      ¬Interchangeable 1 home ⟨[47, 109]⟩ ⟨List.replicate 4095 47 ++ [109]⟩) ∧
    ((⟨[47, 116]⟩ : File).same ⟨[47, 47, 116]⟩ = true ∧
      resolve home 1 scriptDepth [47, 116] ([47, 116] :: load) [] =
        .ok (.success, [47, 116] :: load) ∧
      resolve home 1 scriptDepth [47, 47, 116] ([47, 47, 116] :: load) [] = .error .E2BIG) := by
  have hprogram : Kernel.Exec.program home 1 [47, 116] = .ok (.tool .success) := by cbv
  have hprogram' : Kernel.Exec.program home 1 [47, 47, 116] = .ok (.tool .success) := by cbv
  have hfits : Kernel.Exec.fits ([47, 116] :: load) [] = true := fits_load.mpr (by decide)
  have hfull : Kernel.Exec.fits ([47, 47, 116] :: load) [] = false :=
    Bool.eq_false_iff.mpr (mt fits_load.mp (by decide))
  have hlong : pathLimit ≤ (List.replicate 4095 47 ++ [109] : Bytes).length := by
    rw [List.length_append, List.length_replicate]
    decide
  obtain ⟨e, he⟩ : ∃ e, find home 1 true _ = .error e := find_long hlong
  refine ⟨⟨by decide, not_interchangeable (by cbv) (by cbv)⟩,
    ⟨by decide +kernel, not_interchangeable (by cbv) (leadsSomewhere_of_error he)⟩, by decide,
    ?_, ?_⟩
  · simp only [resolve, scriptDepth, hprogram, hfits]
    rfl
  · simp only [resolve, scriptDepth, hprogram', hfull]
    rfl

end File

end OwnedHandles
