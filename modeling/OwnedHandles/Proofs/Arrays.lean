import Mathlib.Data.List.Nodup
import OwnedHandles.Proofs.Refusals

namespace OwnedHandles

def Bytes.untilNul (bs : Bytes) : Option Bytes :=
  if 0 ∈ bs then some (bs.takeWhile (· ≠ 0)) else none

theorem Bytes.untilNul_terminated {bs : Bytes} (h : 0 ∉ bs) : untilNul (bs ++ [0]) = some bs := by
  have hall : ∀ b ∈ bs, (decide (b ≠ 0)) = true := fun b hb =>
    decide_eq_true fun hzero => h (hzero ▸ hb)
  rw [untilNul, if_pos (List.mem_append_right bs List.mem_cons_self),
    List.takeWhile_append_of_pos hall]
  simp

namespace Block

theorem le_of_mem_numbered {n : Nat} {sizes : List Nat} {b : Block} (h : b ∈ numbered n sizes) :
    n ≤ b.request := by
  induction sizes generalizing n with
  | nil => cases h
  | cons bytes sizes ih =>
    obtain rfl | h := List.mem_cons.mp h
    · exact Nat.le_refl _
    · exact Nat.le_of_succ_le (ih h)

theorem numbered_nodup (n : Nat) (sizes : List Nat) : (numbered n sizes).Nodup := by
  induction sizes generalizing n with
  | nil => exact List.nodup_nil
  | cons bytes sizes ih =>
    refine List.nodup_cons.mpr ⟨fun h => ?_, ih (n + 1)⟩
    exact absurd (le_of_mem_numbered h) (Nat.not_succ_le_self n)

theorem numbered_bytes (n : Nat) (sizes : List Nat) : (numbered n sizes).map bytes = sizes := by
  induction sizes generalizing n with
  | nil => rfl
  | cons bytes sizes ih => exact congrArg (bytes :: ·) (ih (n + 1))

end Block

namespace Allocating

variable {α : Type} {ds : List Demand} {P : α → List Block → Prop}

theorem Builds.succeeds {m : Allocating α} {h : Heap} (hm : m.Builds h.requests.length [] ds P)
    (hgrants : ∀ n, h.grants n = true) (hds : ds.findSome? Demand.refusal? = none) :
    ∃ a h', m.run.run h = (.ok a, h') ∧ ∃ blocks, P a blocks ∧ h'.live = blocks ++ h.live := by
  have hserve := Heap.serve_of_grants hgrants ds
  have hbuilds := hm h h.live rfl rfl
  cases hserved : h.serve ds with
  | mk r h' =>
    rw [hserved, hds] at hserve
    obtain rfl : r = .ok () := hserve
    rw [hserved] at hbuilds
    obtain ⟨a, blocks, hrun, ha⟩ := hbuilds
    exact ⟨a, _, hrun, blocks, ha, rfl⟩

end Allocating

def CString.content (s : CString) : Bytes := s.bytes ++ [0]

namespace ArgumentArray

namespace Stored

def memory (a : Stored) (b : Block) : Bytes :=
  ((a.strings.find? (·.block = b)).map CString.content).getD []

/-- The strings that the pointers lead to, each up to its NUL and all up to the null. There are
none if a NUL or the null is missing. -/
def read (memory : Block → Bytes) : List (Option Block) → Option (List Bytes)
  | [] => none
  | none :: _ => some []
  | some b :: rest => do return (← (memory b).untilNul) :: (← read memory rest)

theorem read_strings {memory : Block → Bytes} {strings : List CString}
    (h : ∀ s ∈ strings, memory s.block = s.content) :
    read memory (strings.map (fun s => some s.block) ++ [none]) =
      some (strings.map CString.bytes) := by
  induction strings with
  | nil => rfl
  | cons s strings ih =>
    have hs : (memory s.block).untilNul = some s.bytes := by
      rw [h s List.mem_cons_self]
      exact Bytes.untilNul_terminated s.nul_not_mem
    have hrest := ih fun t ht => h t (List.mem_cons_of_mem s ht)
    simp [read, hs, hrest]

theorem memory_of_mem {a : Stored} {s : CString} (hdistinct : (a.strings.map CString.block).Nodup)
    (hs : s ∈ a.strings) : a.memory s.block = s.content := by
  have hsome : (a.strings.find? (·.block = s.block)).isSome := by
    rw [List.find?_isSome]
    exact ⟨s, hs, decide_eq_true rfl⟩
  obtain ⟨t, ht⟩ := Option.isSome_iff_exists.mp hsome
  have hblock : t.block = s.block := by simpa using List.find?_some ht
  obtain rfl : t = s :=
    List.inj_on_of_nodup_map hdistinct (List.mem_of_find?_eq_some ht) hs hblock
  rw [memory, ht]
  rfl

/-- The array is these strings: they fill their blocks, no two of which are one, and who follows
the pointers finds them. -/
structure Presents (a : Stored) (strings : List Bytes) : Prop where
  seen_eq : a.seen = ⟨strings⟩
  length_eq : a.length = strings.length
  pointers_eq : a.pointers = a.strings.map (fun s => some s.block) ++ [none]
  read_eq : read a.memory a.pointers = some strings
  nul_not_mem : ∀ s ∈ strings, 0 ∉ s
  fits : ∀ s ∈ a.strings, s.content.length = s.block.bytes
  table_fits : pointerSize * a.pointers.length = a.table.bytes
  distinct : a.blocks.Nodup

variable {a : Stored} {n : Nat} {xs : List LaunchString}

theorem Holds.length_eq (h : a.Holds n xs) : a.strings.length = xs.length := by
  simpa using congrArg List.length h.texts

theorem Holds.sizes_eq (h : a.Holds n xs) :
    a.strings.map (·.block.bytes) = a.strings.map (·.bytes.length + 1) ∧
      a.table.bytes = pointerSize * (a.strings.length + 1) := by
  have hblocks : (a.room.toList.reverse.map Block.bytes ++ a.strings.map (·.block.bytes)) ++
      [a.table.bytes] = LaunchString.sizes xs := by
    rw [← Block.numbered_bytes n (LaunchString.sizes xs), ← h.blocks_eq]
    simp [blocks]
  -- Both lists end with the table, and before it come as many strings.
  obtain ⟨hstrings, htable⟩ := List.append_inj' hblocks rfl
  obtain ⟨-, hstrings⟩ := List.append_inj' hstrings (by simp [h.length_eq])
  refine ⟨?_, ?_⟩
  · have htexts := congrArg (List.map fun s => s.length + 1) h.texts
    rw [List.map_map, List.map_map] at htexts
    exact hstrings.trans htexts.symm
  · rw [h.length_eq]
    exact List.singleton_inj.mp htable

theorem Holds.presents (h : a.Holds n xs) : a.Presents (xs.map LaunchString.named) := by
  have hdistinct : a.blocks.Nodup := by
    rw [← List.nodup_reverse, h.blocks_eq]
    exact Block.numbered_nodup n _
  have hstrings : (a.strings.map CString.block).Nodup :=
    List.nodup_reverse.mp (List.nodup_cons.mp (List.nodup_append.mp hdistinct).1).2
  refine
    { seen_eq := h.seen_eq, length_eq := by simp [length, h.length_eq],
      pointers_eq := h.pointers_eq, read_eq := ?_, nul_not_mem := ?_, fits := ?_,
      table_fits := ?_, distinct := hdistinct }
  · rw [h.pointers_eq, read_strings fun s hs => memory_of_mem hstrings hs, h.texts]
  · rw [← h.texts, List.forall_mem_map]
    exact fun s _ => s.nul_not_mem
  · intro s hs
    rw [List.map_inj_left.mp h.sizes_eq.1 s hs]
    exact List.length_append
  · rw [h.sizes_eq.2, h.pointers_eq]
    simp

end Stored

theorem presents_of_builds {m : Allocating Stored} {xs : List LaunchString} {h : Heap}
    (hm : ∀ n, m.Builds n [] (LaunchString.demands xs) fun a blocks =>
      a.Holds n xs ∧ blocks = a.blocks)
    (hvalid : ∀ x ∈ xs, ¬x.Invalid) (hgrants : ∀ n, h.grants n = true) :
    ∃ a h', m.run.run h = (.ok a, h') ∧ h'.live = a.blocks ++ h.live ∧
      a.Presents (xs.map LaunchString.named) := by
  have hnone : xs.find? (·.Invalid) = none := by simpa using hvalid
  have hdemands : (LaunchString.demands xs).findSome? Demand.refusal? = none := by
    rw [LaunchString.findSome?_demands, hnone]
    rfl
  obtain ⟨a, h', hrun, _, ⟨ha, rfl⟩, hlive⟩ := (hm _).succeeds hgrants hdemands
  exact ⟨a, h', hrun, hlive, ha.presents⟩

def splitEntry (s : Bytes) : Bytes × Bytes :=
  (s.takeWhile (· ≠ equals), (s.dropWhile (· ≠ equals)).tail)

theorem splitEntry_entryString {entry : Bytes × Bytes} (h : equals ∉ entry.1) :
    splitEntry (entryString entry) = entry := by
  have hkey : ∀ b ∈ entry.1, (decide (b ≠ equals)) = true := fun b hb =>
    decide_eq_true fun hequals => h (hequals ▸ hb)
  unfold splitEntry entryString
  rw [List.takeWhile_append_of_pos hkey, List.dropWhile_append_of_pos hkey]
  simp

end ArgumentArray

namespace Environment

theorem insertEntry_last {key : Bytes} {entries : List (Bytes × Bytes)} (value : Bytes)
    (h : ∀ entry ∈ entries, entry.1 < key) :
    insertEntry key value entries = entries ++ [(key, value)] := by
  induction entries with
  | nil => rfl
  | cons first rest ih =>
    have hfirst : first.1 < key := h first List.mem_cons_self
    have hne : first.1 ≠ key := fun heq => List.lt_irrefl key (heq ▸ hfirst)
    have hbefore : ¬keyBefore key first.1 = true := fun hbefore =>
      List.lt_irrefl key (List.lt_trans (keyBefore_iff.mp hbefore) hfirst)
    rw [insertEntry, if_neg hne, if_neg hbefore,
      ih fun entry hentry => h entry (List.mem_cons_of_mem first hentry)]
    rfl

theorem ofList_entries {env : Environment} (h : Sorted env.entries) : ofList env.entries = env := by
  suffices ∀ (rest : List (Bytes × Bytes)) (e : Environment), Sorted (e.entries ++ rest) →
      rest.foldl (fun e p => e.insert p.1 p.2) e = ⟨e.entries ++ rest⟩ from this env.entries {} h
  intro rest
  induction rest with
  | nil => exact fun e _ => congrArg Environment.mk (List.append_nil _).symm
  | cons entry rest ih =>
    intro e he
    have hlast : ∀ first ∈ e.entries, first.1 < entry.1 := fun first hfirst =>
      (List.pairwise_append.mp he).2.2 first hfirst entry List.mem_cons_self
    have hinsert : e.insert entry.1 entry.2 = ⟨e.entries ++ [entry]⟩ :=
      congrArg Environment.mk (insertEntry_last entry.2 hlast)
    rw [List.foldl_cons, hinsert, ih]
    · exact congrArg Environment.mk (List.append_assoc ..)
    · simpa using he

end Environment

theorem commandLine_eq (program : Bytes) (params : List Bytes) :
    commandLine program params = [0x20].intercalate (program :: params) := by
  induction params generalizing program with
  | nil => simp [commandLine]
  | cons p params ih =>
    calc commandLine program (p :: params)
        = commandLine (program ++ 0x20 :: p) params := rfl
      _ = [0x20].intercalate ((program ++ 0x20 :: p) :: params) := ih _
      _ = [0x20].intercalate (program :: p :: params) := by
        cases params <;> simp

theorem commandLine_wellFormed {program : Bytes} {params : List Bytes}
    (hprogram : Text.WellFormed program) (hparams : ∀ p ∈ params, Text.WellFormed p) :
    Text.WellFormed (commandLine program params) := by
  induction params generalizing program with
  | nil => exact hprogram
  | cons p params ih =>
    have hblank : Text.WellFormed [0x20] := ⟨" ", rfl⟩
    have hp : Text.WellFormed p := hparams p List.mem_cons_self
    exact ih (hprogram.append (hblank.append hp)) fun q hq =>
      hparams q (List.mem_cons_of_mem p hq)

namespace Executable

/-- What the ways to run the executable tell of the command, if they end: the names of the handles,
the command of a failed execution and the context of a failed exec. -/
structure Announces (e : Executable) (params : List Bytes) (env : Option Environment)
    (command : String) : Prop where
  start : (e.start params env).EndsIn (fun p => p.name = some command) fun _ => True
  startAndForget : env = none →
    (e.startAndForget params).EndsIn (fun p => p.name = some command) fun _ => True
  redirect (input output error : File) (perm : Mode) :
    (e.redirect params env input output error perm).EndsIn (fun p => p.name = some command)
      fun _ => True
  capture (self : Pid) (rounds : Nat) :
    (e.capture self params env rounds).EndsIn (fun _ => True) fun f =>
      ∀ c status stderr, f = .executionFailed c status stderr → c = command
  exec : (e.exec params env).EndsIn (fun _ => False) fun f => ∃ errno,
    f = .callFailed (if env.isSome then "execve" else "execv")
      ("while executing \"" ++ command ++ "\"") errno

theorem announces {e : Executable} {params : List Bytes} {env : Option Environment}
    {plan : LaunchPlan} (hmake : LaunchPlan.make e.program params env = .ok plan) :
    e.Announces params env plan.commandText where
  start := ((e.start_plans params env).endsIn hmake).weaken (fun _ => id) fun _ _ => trivial
  startAndForget := by
    rintro rfl
    exact ((e.startAndForget_plans params).endsIn hmake).weaken (fun _ => id) fun _ _ => trivial
  redirect input output error perm :=
    ((e.redirect_plans params env input output error perm).endsIn hmake).weaken (fun _ => id)
      fun _ _ => trivial
  capture self rounds := by
    refine ((e.capture_plans self params env rounds).endsIn hmake).weaken (fun _ => id) ?_
    rintro f (hf | ⟨_, _, rfl⟩) c status stderr hfailed
    · exact (hfailed ▸ hf : Failure.OfSystem (.executionFailed c status stderr)).elim
    · cases hfailed
      rfl
  exec := by
    have hcall : plan.execCall = if env.isSome then "execve" else "execv" := by
      have henv := congrArg Option.isSome (LaunchPlan.isFor_of_make hmake).environment_eq
      rw [Option.isSome_map, Option.isSome_map] at henv
      rw [LaunchPlan.execCall, henv]
    rw [← hcall]
    exact (e.exec_plans params env).endsIn hmake

end Executable

namespace LaunchPlan

/-- Strings that hold no NUL are marshalled exactly, in their order, and an environment in the order
of its keys, from whose strings it can be read back. The command line is the arguments with
single blanks between them, and it is what the launch tells of its command. -/
theorem arrays_are_exact (program : Bytes) (params : List Bytes) (env : Environment) (h : Heap)
    (hwords : ∀ s ∈ program :: params, 0 ∉ s)
    (hentries : ∀ entry ∈ env.entries,
      entry.1 ≠ [] ∧ ArgumentArray.equals ∉ entry.1 ∧ 0 ∉ entry.1 ∧ 0 ∉ entry.2)
    (hsorted : Environment.Sorted env.entries) (hgrants : ∀ n, h.grants n = true) :
    (∃ a h', (ArgumentArray.ofArguments program params).run.run h = (.ok a, h') ∧
      h'.live = a.blocks ++ h.live ∧ a.Presents (program :: params)) ∧
    (∃ a h', (ArgumentArray.ofEnvironment env).run.run h = (.ok a, h') ∧
      h'.live = a.blocks ++ h.live ∧ a.Presents (env.entries.map ArgumentArray.entryString) ∧
      a.seen.strings.map ArgumentArray.splitEntry = env.entries ∧
      Environment.ofList (a.seen.strings.map ArgumentArray.splitEntry) = env) ∧
    ∀ given ∈ [none, some env], ∃ plan, make program params given = .ok plan ∧
      plan.IsFor program params given ∧
      plan.commandLine = [0x20].intercalate plan.arguments.strings ∧
      ∀ e : Executable, e.program = program →
        e.Announces params given (Text.decodeLossy plan.commandLine) ∧
        ((∀ p ∈ params, Text.WellFormed p) →
          Bytes.ofString (Text.decodeLossy plan.commandLine) = plan.commandLine) := by
  have hwords' : ∀ x ∈ LaunchString.ofWords program params, ¬x.Invalid :=
    List.forall_mem_map.mpr hwords
  have hentries' : ∀ x ∈ LaunchString.ofEntries env, ¬x.Invalid := by
    refine List.forall_mem_map.mpr fun entry hentry => ?_
    obtain ⟨hempty, hequals, hkey, hvalue⟩ := hentries entry hentry
    rintro (h | h | h | h)
    exacts [hempty h, hequals h, hkey h, hvalue h]
  refine ⟨?_, ?_, fun given hgiven => ?_⟩
  · rw [← LaunchString.ofWords_named program params]
    exact ArgumentArray.presents_of_builds (ArgumentArray.ofArguments_builds program params)
      hwords' hgrants
  · obtain ⟨a, h', hrun, hlive, ha⟩ :=
      ArgumentArray.presents_of_builds (ArgumentArray.ofEnvironment_builds env) hentries' hgrants
    rw [LaunchString.ofEntries_named hentries'] at ha
    have hsplit : a.seen.strings.map ArgumentArray.splitEntry = env.entries := by
      rw [ha.seen_eq, List.map_map]
      refine (List.map_congr_left fun entry hentry => ?_).trans env.entries.map_id
      exact ArgumentArray.splitEntry_entryString (hentries entry hentry).2.1
    refine ⟨a, h', hrun, hlive, ha, hsplit, ?_⟩
    rw [hsplit]
    exact Environment.ofList_entries hsorted
  · have hvalid : ∀ x ∈ LaunchString.ofLaunch program params given, ¬x.Invalid := by
      rw [LaunchString.ofLaunch_eq]
      obtain rfl | rfl : given = none ∨ given = some env := by simpa using hgiven
      · simpa using hwords'
      · exact List.forall_mem_append.mpr ⟨hwords', hentries'⟩
    have hmake := (make_eq_judge program params given).trans (LaunchString.judge_eq_ok hvalid _)
    refine ⟨_, hmake, isFor_of_make hmake, commandLine_eq program params, ?_⟩
    rintro e rfl
    refine ⟨e.announces hmake, fun hparams => Text.ofString_decodeLossy_iff.mpr ?_⟩
    exact commandLine_wellFormed ⟨e.name, rfl⟩ hparams

/-- A parameter is empty, one ends with a blank, and a value is an equals sign. -/
theorem arrays_are_exact_of_entries :
    (∃ a h', (ArgumentArray.ofEnvironment (.ofList [([66], []), ([65], [61])])).run.run {} =
        (.ok a, h') ∧
      ArgumentArray.Stored.read a.memory a.pointers = some [[65, 61, 61], [66, 61]]) ∧
    ∃ plan, make [47] [[], [97, 32]] (some (.ofList [([66], []), ([65], [61])])) = .ok plan ∧
      plan.commandLine = [47, 32, 32, 97, 32] := by
  obtain ⟨-, ⟨a, h', hrun, -, ha, -⟩, hplans⟩ := arrays_are_exact [47] [[], [97, 32]]
    (.ofList [([66], []), ([65], [61])]) {} (by decide) (by decide) (Environment.ofList_sorted _)
    fun _ => rfl
  obtain ⟨plan, hmake, hfor, hline, -⟩ := hplans _ (List.mem_cons_of_mem _ List.mem_cons_self)
  refine ⟨⟨a, h', hrun, ha.read_eq⟩, plan, hmake, ?_⟩
  rw [hline, hfor.strings_eq]
  rfl

end LaunchPlan

end OwnedHandles
