import OwnedHandles.ProcessHandle
import OwnedHandles.Proofs.Numerals

namespace OwnedHandles.ProcessHandle

def pidOf? (text : String) : Option Pid := Text.lastNumber? text

theorem pidOf?_text (p : ProcessHandle) : pidOf? p.text = some p.pid := by
  have hread (before : String) : pidOf? (before ++ ("pid: " ++ toString p.pid)) = some p.pid := by
    have hapart : ∀ c ∈ (before ++ "pid: ").toList.getLast?, Text.isNumeral c = false := by
      simp [Text.isNumeral]
    have hend := Text.lastNumber?_append hapart (u := "") (by simp) p.pid
    rwa [String.append_empty, String.append_assoc] at hend
  unfold text
  split
  · split
    · simpa using hread ""
    · exact hread _
  · simpa using hread ""

theorem same_of_text_eq {p q : ProcessHandle} (h : p.text = q.text) : p.same q = true := by
  have hpid : some p.pid = some q.pid := by rw [← pidOf?_text, ← pidOf?_text, h]
  exact same_iff_pid.mpr (Option.some.inj hpid)

theorem length_eq_of_pids {ps qs : List ProcessHandle} (hqs : (qs.map pid).Nodup)
    (hmem : ∀ q, q ∈ qs.map pid ↔ q ∈ ps.map pid) : qs.length = (ps.map pid).dedup.length := by
  have hperm : (qs.map pid).Perm (ps.map pid).dedup :=
    (List.perm_ext_iff_of_nodup hqs (List.nodup_dedup _)).mpr fun q => by
      rw [hmem, List.mem_dedup]
  simpa using hperm.length_eq

section Distinct

variable {seen : List ProcessHandle} {p : ProcessHandle}

theorem any_same_iff : seen.any p.same = true ↔ p.pid ∈ seen.map pid := by
  simp only [List.any_eq_true, same_iff_pid, List.mem_map]
  exact exists_congr fun q => and_congr_right fun _ => eq_comm

theorem nodup_addNew (h : (seen.map pid).Nodup) : ((addNew seen p).map pid).Nodup := by
  unfold addNew
  split
  · exact h
  · rename_i hnew
    rw [any_same_iff] at hnew
    exact List.nodup_cons.mpr ⟨hnew, h⟩

theorem mem_addNew (q : Pid) :
    q ∈ (addNew seen p).map pid ↔ q = p.pid ∨ q ∈ seen.map pid := by
  unfold addNew
  split
  · rename_i hold
    rw [any_same_iff] at hold
    constructor
    · exact .inr
    · rintro (rfl | hq)
      · exact hold
      · exact hq
  · exact List.mem_cons

theorem foldl_addNew (ps seen : List ProcessHandle) (h : (seen.map pid).Nodup) :
    ((ps.foldl addNew seen).map pid).Nodup ∧
      ∀ q, q ∈ (ps.foldl addNew seen).map pid ↔ q ∈ ps.map pid ∨ q ∈ seen.map pid := by
  induction ps generalizing seen with
  | nil => exact ⟨h, fun q => by simp⟩
  | cons p ps ih =>
    obtain ⟨hnodup, hmem⟩ := ih (addNew seen p) (nodup_addNew h)
    refine ⟨hnodup, fun q => ?_⟩
    rw [List.foldl_cons, hmem, mem_addNew, List.map_cons, List.mem_cons]
    exact or_left_comm.trans or_assoc.symm

theorem length_distinct (ps : List ProcessHandle) :
    (distinct ps).length = (ps.map pid).dedup.length := by
  obtain ⟨hnodup, hmem⟩ := foldl_addNew ps [] List.nodup_nil
  have hlength := length_eq_of_pids hnodup fun q => by simpa using hmem q
  simpa [distinct] using hlength

end Distinct

section HashSet

abbrev identity : BEq ProcessHandle := ⟨same⟩

abbrev hashing (h : Pid → UInt64) : Hashable ProcessHandle := ⟨hashWith h⟩

theorem identity_equiv : @EquivBEq ProcessHandle identity :=
  letI := identity
  { rfl := same_iff_pid.mpr rfl
    symm := fun h => same_iff_pid.mpr (same_iff_pid.mp h).symm
    trans := fun h h' => same_iff_pid.mpr ((same_iff_pid.mp h).trans (same_iff_pid.mp h')) }

theorem hashing_lawful (h : Pid → UInt64) : @LawfulHashable ProcessHandle identity (hashing h) :=
  letI := identity
  letI := hashing h
  ⟨fun _ _ hpq => congrArg h (same_iff_pid.mp hpq)⟩

def hashSet (h : Pid → UInt64) (ps : List ProcessHandle) :
    @Std.HashSet ProcessHandle identity (hashing h) :=
  @Std.HashSet.ofList ProcessHandle identity (hashing h) ps

theorem contains_iff_mem_pids (ps : List ProcessHandle) (q : Pid) :
    @List.contains ProcessHandle identity ps { pid := q } = true ↔ q ∈ ps.map pid := by
  let := identity
  rw [List.contains_iff_exists_mem_beq, List.mem_map]
  exact exists_congr fun p => and_congr_right fun _ => same_iff_pid.trans eq_comm

theorem size_hashSet (h : Pid → UInt64) (ps : List ProcessHandle) :
    (hashSet h ps).size = (ps.map pid).dedup.length := by
  let := identity
  let := hashing h
  have := identity_equiv
  have := hashing_lawful h
  rw [← Std.HashSet.length_toList]
  refine length_eq_of_pids ?_ fun q => ?_
  · refine List.pairwise_map.mpr (Std.HashSet.distinct_toList.imp fun hpq heq => ?_)
    exact absurd (same_iff_pid.mpr heq) (Bool.eq_false_iff.mp hpq)
  · rw [← contains_iff_mem_pids, Std.HashSet.contains_toList, hashSet, Std.HashSet.contains_ofList,
      contains_iff_mem_pids]

end HashSet

/-- What is shown for a handle tells its process, so that handles that look the same are the same.
Names play no part in equality and hashing, and a set of handles, hashed or not, has one for each
process. -/
theorem handles_show_process :
    (∀ p : ProcessHandle, pidOf? p.text = some p.pid) ∧
    (∀ p q : ProcessHandle, p.text = q.text → p.same q = true) ∧
    (∀ (p q : ProcessHandle), p.same q = true ↔ p.pid = q.pid) ∧
    (∀ (h : Pid → UInt64) (p : ProcessHandle) (name : Option String),
      p.same { p with name } = true ∧ hashWith h { p with name } = hashWith h p) ∧
    ∀ (h : Pid → UInt64) (ps : List ProcessHandle),
      (hashSet h ps).size = (ps.map pid).dedup.length ∧
        (distinct ps).length = (ps.map pid).dedup.length := by
  refine ⟨pidOf?_text, fun p q => same_of_text_eq, fun p q => same_iff_pid, fun h p name => ?_,
    fun h ps => ⟨size_hashSet h ps, length_distinct ps⟩⟩
  exact ⟨same_iff_pid.mpr rfl, rfl⟩

end OwnedHandles.ProcessHandle
