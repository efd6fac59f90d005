import OwnedHandles.Proofs.Runs
import OwnedHandles.Proofs.Table

namespace OwnedHandles

namespace Table

def origin? (s : Table) (n : Fd) : Option Origin := (s.entries n).map TableEntry.origin

def give (s : Table) (fd target : Fd) : Table :=
  { s with entries := fun n =>
      if n = target then (s.entries fd).map fun e => { e with closeOnExec := false }
      else s.entries n }

def assigned (s : Table) : List (Fd × Fd) → Table
  | [] => s
  | (fd, target) :: rest => (s.give fd target).assigned rest

variable {s t : Table} {fd target i o e : Fd} {n : Nat} {x : TableEntry}

theorem give_eq_put (h : s.entries fd = some x) :
    s.give fd target = s.put target { x with closeOnExec := false } := by
  simp [give, put, h]

@[simp] theorem origin?_give (s : Table) (fd target n : Fd) :
    (s.give fd target).origin? n = if n = target then s.origin? fd else s.origin? n := by
  by_cases h : n = target
  · simp [origin?, give, h, Function.comp_def]
  · simp [origin?, give, h]

@[simp] theorem origin?_removeAbove (s : Table) (limit n : Fd) (fds : List Fd) :
    (s.removeAbove limit fds).origin? n = if limit < n ∧ n ∈ fds then none else s.origin? n := by
  by_cases h : limit < n ∧ n ∈ fds <;> simp [origin?, h]

def streams (i o e : Fd) : List (Fd × Fd) := [(i, 0), (o, 1), (e, 2)]

theorem origin?_streams (s : Table) (i o e n : Fd) : (s.assigned (streams i o e)).origin? n =
    if n = 0 then s.origin? i
    else if n = 1 then if o = 0 then s.origin? i else s.origin? o
    else if n = 2 then
      if e = 1 then if o = 0 then s.origin? i else s.origin? o
      else if e = 0 then s.origin? i else s.origin? e
    else s.origin? n := by
  simp only [streams, assigned, origin?_give]
  grind

def Streams (s t : Table) (i o e : Fd) : Prop :=
  t.origin? 0 = s.origin? i ∧ t.origin? 1 = s.origin? o ∧ t.origin? 2 = s.origin? e

theorem streams_iff : s.Streams (s.assigned (streams i o e)) i o e ↔
    (o = 0 → s.origin? i = s.origin? 0) ∧ (e = 0 → s.origin? i = s.origin? 0) ∧
      (e = 1 → s.origin? o = s.origin? 1) := by
  simp only [Streams, origin?_streams]
  grind

theorem entries_streams_of_lt (hn : 2 < n) :
    (s.assigned (streams i o e)).entries n = s.entries n := by
  simp only [streams, assigned, give]
  grind

theorem inherited_streams (hi : s.entries i ≠ none) (ho : s.entries o ≠ none)
    (he : s.entries e ≠ none) (hn : n ≤ 2) :
    ∃ x, (s.assigned (streams i o e)).entries n = some x ∧ x.closeOnExec = false := by
  obtain ⟨x, hx⟩ := Option.ne_none_iff_exists'.mp hi
  obtain ⟨y, hy⟩ := Option.ne_none_iff_exists'.mp ho
  obtain ⟨z, hz⟩ := Option.ne_none_iff_exists'.mp he
  obtain rfl | rfl | rfl : n = 0 ∨ n = 1 ∨ n = 2 := by omega
  · simp [streams, assigned, give, hx]
  · by_cases h : o = 0 <;> simp [streams, assigned, give, hx, hy, h]
  · by_cases h : e = 0
    · simp [streams, assigned, give, hx, h]
    · by_cases h' : e = 1
      · by_cases h'' : o = 0 <;> simp [streams, assigned, give, hx, hy, h', h'']
      · simp [streams, assigned, give, hz, h, h']

end Table

namespace ChildStdio

open Table

variable {s t : Table} {i o e : Fd}

def assigning (s : Table) (pairs : List (Fd × Fd)) :
    Contract Table (Except (String × Errno) Unit) :=
  .result fun r t => r = .ok () → t = s.assigned pairs

theorem install_assigned (pairs : List (Fd × Fd)) :
    World.tables.Meets (assigning s pairs) (install pairs) s := by
  induction pairs generalizing s with
  | nil => exact World.alone_done fun _ => rfl
  | cons p pairs ih =>
    obtain ⟨fd, target⟩ := p
    have hfailed (f : String × Errno) (t : Table) :
        World.tables.Meets (assigning s ((fd, target) :: pairs)) (.done (.error f)) t :=
      World.alone_done fun h => by cases h
    have hgiven {x : TableEntry} (hx : s.entries fd = some x) :
        World.tables.Meets (assigning s ((fd, target) :: pairs)) (install pairs)
          (s.put target { x with closeOnExec := false }) := by
      rw [← give_eq_put hx]
      exact ih
    unfold install
    split
    · rename_i heq
      subst heq
      refine World.alone_call trivial fun a t ht => ?_
      cases a with
      | error f => exact hfailed _ t
      | ok _ =>
        obtain ⟨x, hx, rfl⟩ := ht
        exact hgiven hx
    · rename_i hne
      refine World.alone_call trivial fun a t ht => ?_
      cases a with
      | error f => exact hfailed _ t
      | ok _ =>
        obtain ⟨x, hx, rfl⟩ := ht
        rw [if_neg hne]
        exact hgiven hx

theorem wire_assigned :
    World.tables.Meets (.result fun r t =>
        r = .ok () → t = (s.assigned (streams i o e)).removeAbove 2 [i, o, e])
      (wire (.redirect i o e)) s := by
  refine (World.meets_bind _ (install (streams i o e)) _).mpr
    ((install_assigned _).returning fun r t ht => ?_)
  cases r with
  | error f => exact World.alone_done nofun
  | ok _ =>
    obtain rfl := ht rfl
    refine (World.meets_bind _ _ _).mpr (closeAbove_meets World.tables_setsUp 2 _
      (fun _ _ _ => trivial) (World.alone_done fun _ => rfl))

/-- Wiring open descriptors may always succeed. It is an assignment of all streams at once exactly
if what an earlier stream was put on is no source any more, or referred to the same before; all else
is as it should be in any case. -/
theorem wire_assigns_iff (hi : s.entries i ≠ none) (ho : s.entries o ≠ none)
    (he : s.entries e ≠ none) :
    (∃ t, World.tables.Returns (wire (.redirect i o e)) s (.ok ()) t) ∧
    ∀ t, World.tables.Returns (wire (.redirect i o e)) s (.ok ()) t →
      (s.Streams t i o e ↔ (o = 0 → s.origin? i = s.origin? 0) ∧
        (e = 0 → s.origin? i = s.origin? 0) ∧ (e = 1 → s.origin? o = s.origin? 1)) ∧
      (∀ n ≤ 2, ∃ x, t.entries n = some x ∧ x.closeOnExec = false) ∧
      ∀ n, 2 < n → t.entries n = if n ∈ [i, o, e] then none else s.entries n := by
  have hopen : ∀ fd ∈ (redirect i o e).numbers, s.entries fd ≠ none := by
    simp [numbers, hi, ho, he]
  refine ⟨wire_returns World.tables_maySetUp hopen, fun t hwire => ?_⟩
  obtain rfl := wire_assigned.returns hwire rfl
  refine ⟨?_, fun n hn => ?_, fun n hn => ?_⟩
  · rw [← streams_iff]
    simp [Streams]
  · simpa [Nat.not_lt.mpr hn] using inherited_streams hi ho he hn
  · simp [hn, entries_streams_of_lt hn]

/-- With streams on 2, 1 and 3 the source of the first one is a standard number, too, but it is only
written to by the last. -/
theorem wire_assigns_crossed : ∃ s t : Table,
    s.entries 2 ≠ none ∧ s.entries 1 ≠ none ∧ s.entries 3 ≠ none ∧
      World.tables.Returns (wire (.redirect 2 1 3)) s (.ok ()) t ∧ s.Streams t 2 1 3 ∧
      t.entries 3 = none := by
  let s : Table := .before fun _ => some true
  have hopen (n : Fd) : s.entries n ≠ none := nofun
  obtain ⟨⟨t, ht⟩, hruns⟩ := wire_assigns_iff (hopen 2) (hopen 1) (hopen 3)
  obtain ⟨hstreams, -, hkept⟩ := hruns t ht
  have hassigned : s.Streams t 2 1 3 := hstreams.mpr ⟨nofun, nofun, nofun⟩
  exact ⟨s, t, hopen 2, hopen 1, hopen 3, ht, hassigned, hkept 3 (by decide)⟩

/-- With streams on 3, 0 and 4 the first one is put on the source of the second, which leads to the
wrong file. -/
theorem wire_overwrites_source : ∃ s t : Table,
    s.entries 3 ≠ none ∧ s.entries 0 ≠ none ∧ s.entries 4 ≠ none ∧
      World.tables.Returns (wire (.redirect 3 0 4)) s (.ok ()) t ∧
      s.origin? 0 = some (.earlier 0) ∧ t.origin? 1 = some (.earlier 3) := by
  let s : Table := .before fun _ => some false
  let wired : Table := ((s.put 0 ⟨.earlier 3, false⟩).put 1 ⟨.earlier 3, false⟩).put 2
    ⟨.earlier 4, false⟩
  have hallows : World.tables.Allows s [⟨.duplicate 3 0, .ok ()⟩, ⟨.duplicate 0 1, .ok ()⟩,
      ⟨.duplicate 4 2, .ok ()⟩, ⟨.close 3, .ok ()⟩, ⟨.close 4, .ok ()⟩]
      ((wired.remove 3).remove 4) := by
    iterate 3 refine .answer ⟨_, rfl, rfl⟩ ?_
    exact .answer rfl (.answer rfl (.nil _))
  exact ⟨s, _, nofun, nofun, nofun, hallows.returns (by decide +kernel), rfl, rfl⟩

end ChildStdio

end OwnedHandles
