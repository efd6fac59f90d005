import Mathlib.Data.Nat.Count
import Mathlib.Data.Set.Card
import OwnedHandles.Proofs.ShortWrites

namespace OwnedHandles

namespace Handover

abbrev wrote (fd : Fd) (data : Bytes) (r : Except Errno Nat) : Answered := ⟨.write fd data, r⟩

def count : Except Errno Nat → Nat
  | .ok n => n
  | .error _ => 0

def stop? : Except Errno Nat → Option Errno
  | .ok 0 => some .EIO
  | .ok (_ + 1) => none
  | .error e => if e = .EINTR then none else some e

/-- The calls are writes that come back with the results of the sequence, from its first one on. -/
def Draws (fd : Fd) (results : ℕ → Except Errno ℕ) (as : List Answered) : Prop :=
  ∀ i x, as[i]? = some x → ∃ data, x = wrote fd data (results i)

end Handover

def Answered.stop? : Answered → Option Errno
  | ⟨.write .., r⟩ => Handover.stop? r
  | _ => none

open Handover (count stop? wrote Draws)

/-- The writes of a handover that goes on, each of all that those before it have left, and what they
leave. -/
inductive Handover (fd : Fd) : Bytes → List Answered → Bytes → Prop
  | nil (data : Bytes) : Handover fd data [] data
  | cons {data rest : Bytes} {r : Except Errno Nat} {as : List Answered} :
      data ≠ [] → stop? r = none → Handover fd (data.drop (count r)) as rest →
      Handover fd data (wrote fd data r :: as) rest

namespace Handover

variable {fd : Fd} {data rest : Bytes} {r : Except Errno Nat} {e : Errno}
  {as before after : List Answered}

theorem count_of_stop (h : stop? r = some e) : count r = 0 := by
  cases r with
  | ok n => cases n <;> first | rfl | cases h
  | error e => rfl

theorem count_pos (h : stop? r = none) (hr : r ≠ .error .EINTR) : 0 < count r := by
  cases r with
  | ok n =>
    cases n with
    | zero => cases h
    | succ n => exact Nat.succ_pos n
  | error e =>
    have he : e ≠ .EINTR := fun he => hr (he ▸ rfl)
    simp [stop?, he] at h

theorem Draws.snoc {results : ℕ → Except Errno ℕ} (h : Draws fd results as) (data : Bytes) :
    Draws fd results (as ++ [wrote fd data (results as.length)]) := by
  intro i x hx
  rw [List.getElem?_append] at hx
  split at hx
  · exact h i x hx
  · rw [List.getElem?_singleton] at hx
    obtain ⟨hi, hx⟩ := Option.ite_none_right_eq_some.mp hx
    obtain rfl := Option.some.inj hx
    obtain rfl : i = as.length := by omega
    exact ⟨data, rfl⟩

theorem append_iff : Handover fd data (before ++ after) rest ↔
    ∃ left, Handover fd data before left ∧ Handover fd left after rest := by
  induction before generalizing data with
  | nil =>
    constructor
    · exact fun h => ⟨data, .nil data, h⟩
    · rintro ⟨_, ⟨⟩, h⟩
      exact h
  | cons x before ih =>
    constructor
    · rintro (_ | ⟨hdata, hr, h⟩)
      obtain ⟨left, hbefore, hafter⟩ := ih.mp h
      exact ⟨left, .cons hdata hr hbefore, hafter⟩
    · rintro ⟨left, _ | ⟨hdata, hr, hbefore⟩, hafter⟩
      exact .cons hdata hr (ih.mpr ⟨left, hbefore, hafter⟩)

theorem snoc (h : Handover fd data as rest) (hrest : rest ≠ []) (hr : stop? r = none) :
    Handover fd data (as ++ [wrote fd rest r]) (rest.drop (count r)) :=
  append_iff.mpr ⟨rest, h, .cons hrest hr (.nil _)⟩

theorem unstopped (h : Handover fd data as rest) : ∀ x ∈ as, x.stop? = none := by
  induction h with
  | nil => exact fun _ hx => nomatch hx
  | cons _ hr _ ih => exact List.forall_mem_cons.mpr ⟨hr, ih⟩

theorem accepted_write_cons (h : List Happening) :
    Happening.accepted (.called (wrote fd data r) :: h) =
      data.take (count r) ++ Happening.accepted h := by
  cases r <;> simp [Happening.accepted, Happening.write?, Happening.taken, count]

theorem accepted_append (h : Handover fd data as rest) :
    Happening.accepted (as.map .called) ++ rest = data := by
  induction h with
  | nil data => rfl
  | cons _ _ _ ih =>
    rw [List.map_cons, accepted_write_cons, List.append_assoc, ih, List.take_append_drop]

theorem accepted_stopped (hr : stop? r = some e) :
    Happening.accepted ((before ++ [wrote fd data r]).map .called) =
      Happening.accepted (before.map .called) := by
  rw [List.map_append, Happening.accepted_append, List.map_singleton, accepted_write_cons,
    count_of_stop hr]
  exact List.append_nil _

end Handover

namespace Descriptor

variable {fd : Fd} {name : String} {rounds : Nat} {data rest : Bytes} {r : Except Errno Nat}
  {e : Errno} {as : List Answered}

theorem writeAll_nil (d : Descriptor) (rounds : Nat) :
    (d.writeAll rounds []).run = .done (.ok ()) := by
  cases rounds <;> rfl

def afterWrite (fd : Fd) (name : String) (rounds : Nat) (data : Bytes) (r : Except Errno Nat) :
    Program (Except Failure Unit) :=
  match stop? r with
  | some e => .done (.error (.writeFailed name e))
  | none => ((owning fd name).writeAll rounds (data.drop (count r))).run

theorem afterWrite_stop (hr : stop? r = some e) :
    afterWrite fd name rounds data r = .done (.error (.writeFailed name e)) := by
  simp only [afterWrite, hr]

theorem afterWrite_goOn (hr : stop? r = none) : afterWrite fd name rounds data r =
    ((owning fd name).writeAll rounds (data.drop (count r))).run := by
  simp only [afterWrite, hr]

theorem writeAll_run (hdata : data ≠ []) : ((owning fd name).writeAll (rounds + 1) data).run =
    .call (.write fd data) (afterWrite fd name rounds data) := by
  obtain ⟨b, bs, rfl⟩ := List.exists_cons_of_ne_nil hdata
  refine congrArg (Program.call (.write fd (b :: bs))) (funext fun r => ?_)
  cases r with
  | ok n => cases n <;> rfl
  | error e =>
    by_cases he : e = .EINTR
    · subst he
      rfl
    · simp only [afterWrite, stop?, he, if_false]
      cases e <;> first | rfl | exact absurd rfl he

theorem nil_of_writeAll_done {r : Except Failure Unit}
    (h : ((owning fd name).writeAll rounds data).run = .done r) : data = [] ∧ r = .ok () := by
  cases data with
  | nil =>
    rw [writeAll_nil] at h
    cases h
    exact ⟨rfl, rfl⟩
  | cons b bs =>
    cases rounds with
    | zero => cases h
    | succ left =>
      rw [writeAll_run (List.cons_ne_nil b bs)] at h
      cases h

theorem follow_writeAll_none : ((owning fd name).writeAll rounds data).run.follow [] =
    some ((owning fd name).writeAll rounds data).run := by
  cases data <;> cases rounds <;> rfl

theorem follow_writeAll_cons {q : Program (Except Failure Unit)} {x : Answered} :
    ((owning fd name).writeAll rounds data).run.follow (x :: as) = some q ↔
      data ≠ [] ∧ ∃ left r, rounds = left + 1 ∧ x = wrote fd data r ∧
        (afterWrite fd name left data r).follow as = some q := by
  constructor
  · intro h
    by_cases hdata : data = []
    · subst hdata
      rw [writeAll_nil] at h
      cases (Program.follow_done.mp h).1
    · cases rounds with
      | zero =>
        obtain ⟨b, bs, rfl⟩ := List.exists_cons_of_ne_nil hdata
        cases (Program.follow_unfinished.mp h).1
      | succ left =>
        rw [writeAll_run hdata] at h
        obtain ⟨⟨⟩, -⟩ | ⟨r, _, heq, hnext⟩ := Program.follow_call.mp h
        cases heq
        exact ⟨hdata, left, r, rfl, rfl, hnext⟩
  · rintro ⟨hdata, left, r, rfl, rfl, hnext⟩
    rw [writeAll_run hdata]
    exact Program.follow_call_cons.trans hnext

theorem writeAll_moment {q : Program (Except Failure Unit)}
    (h : ((owning fd name).writeAll rounds data).run.follow as = some q) :
    ∃ before rest, Handover fd data before rest ∧
      (as = before ∧ q = ((owning fd name).writeAll (rounds - as.length) rest).run ∨
      ∃ r e, rest ≠ [] ∧ stop? r = some e ∧ as = before ++ [wrote fd rest r] ∧
        q = .done (.error (.writeFailed name e))) := by
  induction as generalizing rounds data with
  | nil =>
    rw [follow_writeAll_none] at h
    exact ⟨[], data, .nil data, .inl ⟨rfl, (Option.some.inj h).symm⟩⟩
  | cons x as ih =>
    obtain ⟨hdata, left, r, rfl, rfl, hnext⟩ := follow_writeAll_cons.mp h
    cases hr : stop? r with
    | some e =>
      rw [afterWrite_stop hr] at hnext
      obtain ⟨rfl, rfl⟩ := Program.follow_done.mp hnext
      exact ⟨[], data, .nil data, .inr ⟨r, e, hdata, hr, rfl, rfl⟩⟩
    | none =>
      rw [afterWrite_goOn hr] at hnext
      obtain ⟨before, rest, hwrites, hend⟩ := ih hnext
      refine ⟨wrote fd data r :: before, rest, .cons hdata hr hwrites, ?_⟩
      obtain ⟨rfl, rfl⟩ | ⟨r', e, hrest, hr', rfl, rfl⟩ := hend
      · exact .inl ⟨rfl, by rw [List.length_cons, Nat.add_sub_add_right]⟩
      · exact .inr ⟨r', e, hrest, hr', rfl, rfl⟩

theorem writeAll_accepted {q : Program (Except Failure Unit)}
    (h : ((owning fd name).writeAll rounds data).run.follow as = some q) :
    Happening.accepted (as.map .called) <+: data := by
  obtain ⟨before, rest, hwrites, ⟨rfl, -⟩ | ⟨r, e, -, hr, rfl, -⟩⟩ := writeAll_moment h
  · exact ⟨rest, hwrites.accepted_append⟩
  · rw [Handover.accepted_stopped hr]
    exact ⟨rest, hwrites.accepted_append⟩

theorem writeAll_resumes {q : Program (Except Failure Unit)} {before after : List Answered}
    {x : Answered}
    (h : ((owning fd name).writeAll rounds data).run.follow (before ++ x :: after) = some q) :
    (∀ y ∈ before, y.stop? = none) ∧ ∃ rest ≠ [],
      Happening.accepted (before.map .called) ++ rest = data ∧ x.call = .write fd rest := by
  -- The moment before the call says what is left for it.
  rw [Program.follow_append] at h
  obtain ⟨p, hp, hx⟩ := Option.bind_eq_some_iff.mp h
  obtain ⟨_, rest, hwrites, ⟨rfl, rfl⟩ | ⟨_, _, -, -, -, rfl⟩⟩ := writeAll_moment hp
  · obtain ⟨hrest, _, r, -, rfl, -⟩ := follow_writeAll_cons.mp hx
    exact ⟨hwrites.unstopped, rest, hrest, hwrites.accepted_append, rfl⟩
  · cases (Program.follow_done.mp hx).1

theorem writeAll_result {r : Except Failure Unit}
    (h : ((owning fd name).writeAll rounds data).run.follow as = some (.done r)) :
    (r = .ok () ↔ Happening.accepted (as.map .called) = data) ∧
      ∀ f, r = .error f ↔ ∃ e, as.findSome? Answered.stop? = some e ∧ f = .writeFailed name e := by
  obtain ⟨before, rest, hwrites, ⟨rfl, hq⟩ | ⟨r', e, hrest, hr', rfl, hq⟩⟩ := writeAll_moment h
  · obtain ⟨rfl, rfl⟩ := nil_of_writeAll_done hq.symm
    have haccepted := hwrites.accepted_append
    rw [List.append_nil] at haccepted
    have hstop : as.findSome? Answered.stop? = none :=
      List.findSome?_eq_none_iff.mpr hwrites.unstopped
    simp [haccepted, hstop]
  · cases hq
    have haccepted : Happening.accepted (before.map .called) ≠ data := by
      intro heq
      have hsplit := hwrites.accepted_append
      rw [heq] at hsplit
      exact hrest (List.append_right_eq_self.mp hsplit)
    have hstop : (before ++ [wrote fd rest r']).findSome? Answered.stop? = some e := by
      rw [List.findSome?_append, List.findSome?_eq_none_iff.mpr hwrites.unstopped]
      simp [Answered.stop?, hr']
    rw [Handover.accepted_stopped hr', hstop]
    simp [haccepted, eq_comm]

theorem follow_writeAll_append (name : String) (h : Handover fd data as rest)
    {q : Program (Except Failure Unit)} {more : List Answered}
    (hq : ((owning fd name).writeAll rounds rest).run.follow more = some q) :
    ((owning fd name).writeAll (rounds + as.length) data).run.follow (as ++ more) = some q := by
  induction h with
  | nil => exact hq
  | cons hdata hr _ ih =>
    refine follow_writeAll_cons.mpr ⟨hdata, _, _, rfl, rfl, ?_⟩
    rw [afterWrite_goOn hr]
    exact ih hq

theorem follow_writeAll_nil (h : Handover fd data as []) (hrounds : as.length ≤ rounds) :
    ((owning fd name).writeAll rounds data).run.follow as = some (.done (.ok ())) := by
  obtain ⟨left, rfl⟩ := Nat.exists_eq_add_of_le' hrounds
  have hdone : ((owning fd name).writeAll left []).run.follow [] = some (.done (.ok ())) := by
    rw [follow_writeAll_none, writeAll_nil]
  simpa using follow_writeAll_append name h hdone

theorem follow_writeAll_stop (h : Handover fd data as rest) (hrest : rest ≠ [])
    (hr : stop? r = some e) (hrounds : as.length < rounds) :
    ((owning fd name).writeAll rounds data).run.follow (as ++ [wrote fd rest r]) =
      some (.done (.error (.writeFailed name e))) := by
  obtain ⟨left, rfl⟩ := Nat.exists_eq_add_of_le' (Nat.succ_le_of_lt hrounds)
  have hstop : ((owning fd name).writeAll (left + 1) rest).run.follow [wrote fd rest r] =
      some (.done (.error (.writeFailed name e))) := by
    refine follow_writeAll_cons.mpr ⟨hrest, left, r, rfl, rfl, ?_⟩
    rw [afterWrite_stop hr]
    rfl
  rw [← Nat.succ_add_eq_add_succ]
  exact follow_writeAll_append name h hstop

/-- After any number of writes it is over, or as many bytes and interruptions are used up. -/
theorem writeAll_advances (fd : Fd) (name : String) (data : Bytes)
    (results : ℕ → Except Errno ℕ) (n : Nat) :
    (∃ as rest, as.length = n ∧ Draws fd results as ∧ Handover fd data as rest ∧ rest ≠ [] ∧
      n + rest.length ≤ data.length + Nat.count (fun i => results i = .error .EINTR) n) ∨
    ∃ as r, as.length ≤ n ∧ Draws fd results as ∧ ∀ rounds ≥ as.length,
      ((owning fd name).writeAll rounds data).run.follow as = some (.done r) := by
  have hnone : Draws fd results [] := fun _ _ hx => nomatch hx
  induction n with
  | zero =>
    by_cases hdata : data = []
    · subst hdata
      exact .inr ⟨[], _, le_rfl, hnone, fun rounds h => follow_writeAll_nil (.nil []) h⟩
    · exact .inl ⟨[], data, rfl, hnone, .nil data, hdata, by simp⟩
  | succ n ih =>
    obtain ⟨as, rest, rfl, hdraws, hwrites, hrest, hleft⟩ | ⟨as, r, hn, hdraws, hends⟩ := ih
    · cases hr : stop? (results as.length) with
      | some e =>
        refine .inr ⟨_, .error (.writeFailed name e), by simp, hdraws.snoc rest, fun rounds h => ?_⟩
        exact follow_writeAll_stop hwrites hrest hr (by simpa using h)
      | none =>
        have hnext := hwrites.snoc hrest hr
        by_cases hend : rest.drop (count (results as.length)) = []
        · rw [hend] at hnext
          exact .inr ⟨_, _, by simp, hdraws.snoc rest, fun rounds h => follow_writeAll_nil hnext h⟩
        · refine .inl ⟨_, _, by simp, hdraws.snoc rest, hnext, hend, ?_⟩
          have hlength := List.length_pos_iff.mpr hrest
          -- One write more is one interruption more, or fewer bytes.
          rw [List.length_drop, Nat.count_succ]
          split
          · omega
          · have hcount := Handover.count_pos hr ‹_›
            omega
    · exact .inr ⟨as, r, Nat.le_succ_of_le hn, hdraws, hends⟩

/-- Whatever the writes come back with, the system has a beginning of the bytes at any moment, and
each write is one of all the rest; with no bytes there is none. The result is good if and only if
all of the bytes were taken, and a failure has the cause of the first write that took nothing or
failed, interruptions apart. With finitely many of these it is over, after at most one write for
each of them and for each byte. -/
theorem writeAll_hands_over (fd : Fd) (name : String) (data : Bytes) :
    (∀ rounds as q, ((owning fd name).writeAll rounds data).run.follow as = some q →
      Happening.accepted (as.map .called) <+: data ∧ (data = [] → as = []) ∧
      ∀ before x after, as = before ++ x :: after →
        (∀ y ∈ before, y.stop? = none) ∧ ∃ rest ≠ [],
          Happening.accepted (before.map .called) ++ rest = data ∧ x.call = .write fd rest) ∧
    (∀ rounds as r, ((owning fd name).writeAll rounds data).run.follow as = some (.done r) →
      (r = .ok () ↔ Happening.accepted (as.map .called) = data) ∧
      ∀ f, r = .error f ↔ ∃ e, as.findSome? Answered.stop? = some e ∧ f = .writeFailed name e) ∧
    ∀ results : ℕ → Except Errno ℕ, {i | results i = .error .EINTR}.Finite →
      ∃ as r, as.length ≤ data.length + {i | results i = .error .EINTR}.ncard ∧
        Draws fd results as ∧ ∀ rounds ≥ as.length,
          ((owning fd name).writeAll rounds data).run.follow as = some (.done r) := by
  refine ⟨fun rounds as q h => ⟨writeAll_accepted h, ?_, ?_⟩,
    fun rounds as r h => writeAll_result h, fun results hfinite => ?_⟩
  · rintro rfl
    rw [writeAll_nil] at h
    exact (Program.follow_done.mp h).1
  · rintro before x after rfl
    exact writeAll_resumes h
  · obtain ⟨as, rest, -, -, -, hrest, hleft⟩ | hends := writeAll_advances fd name data results
      (data.length + {i | results i = .error .EINTR}.ncard)
    · have hcount := Nat.count_le_card hfinite
        (data.length + {i | results i = .error .EINTR}.ncard)
      rw [← Set.ncard_eq_toFinset_card _ hfinite] at hcount
      have hlength := List.length_pos_iff.mpr hrest
      omega
    · exact hends

end Descriptor

end OwnedHandles
