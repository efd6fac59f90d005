import OwnedHandles.Proofs.Arrays

namespace OwnedHandles

namespace LaunchString

/-- The sizes that are asked for, in this order: for the list of the strings, if there are any; for
each string with its NUL, up to the first that is invalid; and for the pointers with the null, if
none is. -/
def requests (xs : List LaunchString) : List Nat :=
  (if xs.length = 0 then [] else [16 * xs.length]) ++
    (xs.takeWhile (¬·.Invalid)).map (fun x => x.named.length + 1) ++
    if ∀ x ∈ xs, ¬x.Invalid then [8 * (xs.length + 1)] else []

variable {xs : List LaunchString} {x : LaunchString}

theorem roomSizes_eq (n : Nat) :
    Heap.roomSizes (ArgumentArray.stringHeader * n) = if n = 0 then [] else [16 * n] := by
  cases n <;> rfl

theorem map_demand_of_valid (h : ∀ x ∈ xs, ¬x.Invalid) :
    xs.map demand = (xs.map fun x => x.named.length + 1).map .memory := by
  rw [List.map_map]
  exact List.map_congr_left fun x hx => demand_of_valid (h x hx)

theorem requests_of_valid (h : ∀ x ∈ xs, ¬x.Invalid) : requests xs = sizes xs := by
  have htake : xs.takeWhile (¬·.Invalid) = xs := by
    rw [← xs.append_nil, List.takeWhile_append_of_pos (by simpa using h), List.takeWhile_nil]
  rw [requests, htake, if_pos h, sizes, roomSizes_eq]
  rfl

theorem demands_of_valid (h : ∀ x ∈ xs, ¬x.Invalid) :
    demands xs = (requests xs).map .memory := by
  rw [requests_of_valid h, demands, map_demand_of_valid h]
  simp [sizes]

theorem demands_of_invalid (h : xs.find? (·.Invalid) = some x) :
    ∃ ds, demands xs = (requests xs).map .memory ++ .refusal x.refusal :: ds := by
  obtain ⟨hx, valid, rest, rfl, hvalid⟩ := List.find?_eq_some_iff_append.mp h
  have hx : x.Invalid := by simpa using hx
  have hvalid : ∀ y ∈ valid, ¬y.Invalid := by simpa using hvalid
  have htake : (valid ++ x :: rest).takeWhile (¬·.Invalid) = valid := by
    rw [List.takeWhile_append_of_pos (by simpa using hvalid),
      List.takeWhile_cons_of_neg (by simpa using hx), List.append_nil]
  have hall : ¬∀ y ∈ valid ++ x :: rest, ¬y.Invalid := fun hall =>
    hall x (List.mem_append_right _ List.mem_cons_self) hx
  refine ⟨rest.map demand ++
    [.memory (ArgumentArray.pointerSize * ((valid ++ x :: rest).length + 1))], ?_⟩
  rw [requests, htake, if_neg hall, demands, List.map_append, map_demand_of_valid hvalid,
    List.map_cons, demand_of_invalid hx, roomSizes_eq]
  simp

end LaunchString

namespace Heap

def GrantsNext (h : Heap) (k : Nat) : Prop := ∀ j < k, h.grants (h.requests.length + j) = true

def asked (h : Heap) (sizes : List Nat) : Heap :=
  { h with requests := sizes.reverse ++ h.requests }

variable {h : Heap} {sizes : List Nat} {k : Nat}

theorem asked_cons (h : Heap) (bytes : Nat) (sizes : List Nat) :
    h.asked (bytes :: sizes) = (h.asked [bytes]).asked sizes := by
  simp [asked]

theorem GrantsNext.first (hgranted : h.GrantsNext (k + 1)) :
    h.grants h.requests.length = true :=
  hgranted 0 k.succ_pos

theorem GrantsNext.rest (hgranted : h.GrantsNext (k + 1)) (bytes : Nat) :
    (h.asked [bytes]).GrantsNext k := by
  intro j hj
  have hnext := hgranted (j + 1) (Nat.succ_lt_succ hj)
  rwa [← Nat.add_assoc, Nat.add_right_comm] at hnext

theorem serve_refused (hk : k < sizes.length) (hgranted : h.GrantsNext k)
    (hrefused : h.grants (h.requests.length + k) = false) (ds : List Demand) :
    h.serve (sizes.map .memory ++ ds) =
      (.error (.allocationFailed sizes[k]), h.asked (sizes.take (k + 1))) := by
  induction sizes generalizing h k with
  | nil => cases hk
  | cons bytes sizes ih =>
    simp only [List.map_cons, List.cons_append, serve]
    cases k with
    | zero =>
      rw [Nat.add_zero] at hrefused
      rw [hrefused]
      rfl
    | succ k =>
      rw [← Nat.add_assoc, Nat.add_right_comm] at hrefused
      rw [if_pos hgranted.first, List.take_succ_cons, asked_cons]
      exact ih (Nat.lt_of_succ_lt_succ hk) (hgranted.rest bytes) hrefused

theorem serve_granted (hgranted : h.GrantsNext sizes.length) (ds : List Demand) :
    h.serve (sizes.map .memory ++ ds) = (h.asked sizes).serve ds := by
  induction sizes generalizing h with
  | nil => rfl
  | cons bytes sizes ih =>
    simp only [List.map_cons, List.cons_append, serve]
    rw [if_pos hgranted.first, asked_cons]
    exact ih (hgranted.rest bytes)

end Heap

namespace LaunchString

variable {h : Heap} {xs : List LaunchString} {x : LaunchString} {k : Nat}

theorem serve_refused (hk : k < (requests xs).length) (hgranted : h.GrantsNext k)
    (hrefused : h.grants (h.requests.length + k) = false) :
    h.serve (demands xs) =
      (.error (.allocationFailed (requests xs)[k]), h.asked ((requests xs).take (k + 1))) := by
  cases hfind : xs.find? (·.Invalid) with
  | none =>
    rw [demands_of_valid (by simpa using hfind), ← List.append_nil (List.map ..)]
    exact Heap.serve_refused hk hgranted hrefused []
  | some x =>
    obtain ⟨ds, hds⟩ := demands_of_invalid hfind
    rw [hds]
    exact Heap.serve_refused hk hgranted hrefused _

theorem serve_invalid (hgranted : h.GrantsNext (requests xs).length)
    (hx : xs.find? (·.Invalid) = some x) :
    h.serve (demands xs) = (.error x.refusal, h.asked (requests xs)) := by
  obtain ⟨ds, hds⟩ := demands_of_invalid hx
  rw [hds, Heap.serve_granted hgranted]
  rfl

theorem serve_valid (hgranted : h.GrantsNext (requests xs).length)
    (hvalid : ∀ x ∈ xs, ¬x.Invalid) : h.serve (demands xs) = (.ok (), h.asked (requests xs)) := by
  rw [demands_of_valid hvalid, ← List.append_nil (List.map ..), Heap.serve_granted hgranted]
  rfl

end LaunchString

namespace ArgumentArray

open LaunchString

namespace Stored

theorem Holds.unique {a b : Stored} {n : Nat} {xs : List LaunchString} (ha : a.Holds n xs)
    (hb : b.Holds n xs) : a = b := by
  have hbytes := ha.texts.trans hb.texts.symm
  have hblocks : a.blocks = b.blocks :=
    List.reverse_inj.mp (ha.blocks_eq.trans hb.blocks_eq.symm)
  have hlength : a.strings.length = b.strings.length := ha.length_eq.trans hb.length_eq.symm
  obtain ⟨hnewest, hroom⟩ := List.append_inj hblocks (by simp [hlength])
  obtain ⟨htable, hreverse⟩ := List.cons_eq_cons.mp hnewest
  -- Bytes and block make a string: that it has no NUL is no part of it.
  have hpairs := congrArg₂ List.zip hbytes (List.reverse_inj.mp hreverse)
  rw [List.zip_map', List.zip_map'] at hpairs
  have hstrings : a.strings = b.strings := by
    refine List.map_injective_iff.mpr (fun s t hst => ?_) hpairs
    cases s
    cases t
    simpa [and_comm] using hst
  have hpointers : a.pointers = b.pointers := by rw [ha.pointers_eq, hb.pointers_eq, hstrings]
  have hroom : a.room = b.room := by simpa using congrArg List.head? hroom
  calc a = ⟨a.strings, a.room, a.pointers, a.table⟩ := rfl
    _ = b := by rw [hstrings, hroom, hpointers, htable]

end Stored

structure Accounts (marshal : Allocating Stored) (xs : List LaunchString) : Prop where
  fails (h : Heap) (k : Nat) (hk : k < (requests xs).length) : h.GrantsNext k →
    h.grants (h.requests.length + k) = false →
    marshal.run.run h =
      (.error (.allocationFailed (requests xs)[k]), h.asked ((requests xs).take (k + 1)))
  refuses (h : Heap) (x : LaunchString) : h.GrantsNext (requests xs).length →
    xs.find? (·.Invalid) = some x →
    marshal.run.run h = (.error x.refusal, h.asked (requests xs))
  succeeds (h : Heap) : h.GrantsNext (requests xs).length → (∀ x ∈ xs, ¬x.Invalid) →
    ∃ a, marshal.run.run h =
        (.ok a, { h.asked (requests xs) with live := a.blocks ++ h.live }) ∧
      a.Presents (xs.map named) ∧ a.blocks.reverse.map Block.bytes = requests xs ∧
      ((marshal.run.run h).2.release a.blocks) = h.asked (requests xs)
  /-- Whatever happens to later requests does not matter. -/
  unreached (h : Heap) : h.GrantsNext (requests xs).length →
    (marshal.run.run h).1 = (marshal.run.run { h with grants := fun _ => true }).1

section

variable {marshal : Allocating Stored} {xs : List LaunchString} {h : Heap}

theorem run_of_valid
    (hm : ∀ n, marshal.Builds n [] (demands xs) fun a blocks =>
      a.Holds n xs ∧ blocks = a.blocks)
    (hgranted : h.GrantsNext (requests xs).length) (hvalid : ∀ x ∈ xs, ¬x.Invalid) :
    ∃ a, marshal.run.run h =
      (.ok a, { h.asked (requests xs) with live := a.blocks ++ h.live }) ∧
      a.Holds h.requests.length xs := by
  have hbuilds := hm h.requests.length h h.live rfl rfl
  rw [LaunchString.serve_valid hgranted hvalid] at hbuilds
  obtain ⟨a, _, hrun, ha, rfl⟩ := hbuilds
  exact ⟨a, hrun, ha⟩

theorem accounts_of_builds
    (hm : ∀ n, marshal.Builds n [] (demands xs) fun a blocks =>
      a.Holds n xs ∧ blocks = a.blocks) : Accounts marshal xs := by
  have hrefuses (h : Heap) (x : LaunchString) (hgranted : h.GrantsNext (requests xs).length)
      (hx : xs.find? (·.Invalid) = some x) :
      marshal.run.run h = (.error x.refusal, h.asked (requests xs)) := by
    have hbuilds := hm h.requests.length h h.live rfl rfl
    rwa [LaunchString.serve_invalid hgranted hx] at hbuilds
  refine ⟨fun h k hk hgranted hrefused => ?_, hrefuses, fun h hgranted hvalid => ?_,
    fun h hgranted => ?_⟩
  · have hbuilds := hm h.requests.length h h.live rfl rfl
    rwa [LaunchString.serve_refused hk hgranted hrefused] at hbuilds
  · obtain ⟨a, hrun, ha⟩ := run_of_valid hm hgranted hvalid
    refine ⟨a, hrun, ha.presents, ?_, ?_⟩
    · rw [ha.blocks_eq, Block.numbered_bytes, requests_of_valid hvalid]
    · rw [hrun]
      exact congrArg (fun live => { h.asked (requests xs) with live })
        (Heap.foldl_erase_append a.blocks h.live)
  · have hall : Heap.GrantsNext { h with grants := fun _ => true } (requests xs).length :=
      fun _ _ => rfl
    cases hfind : xs.find? (·.Invalid) with
    | some x => rw [hrefuses h x hgranted hfind, hrefuses _ x hall hfind]
    | none =>
      have hvalid : ∀ x ∈ xs, ¬x.Invalid := by simpa using hfind
      obtain ⟨a, hrun, ha⟩ := run_of_valid hm hgranted hvalid
      obtain ⟨b, hrun', hb⟩ := run_of_valid hm hall hvalid
      rw [hrun, hrun', ha.unique hb]

end

/-- The arrays of arguments and of environments are made with exactly these requests for memory. -/
theorem marshalling_accounts :
    (∀ program params, Accounts (ofArguments program params) (ofWords program params)) ∧
      ∀ env, Accounts (ofEnvironment env) (ofEntries env) :=
  ⟨fun program params => accounts_of_builds (ofArguments_builds program params),
    fun env => accounts_of_builds (ofEnvironment_builds env)⟩

/-- There is memory for the list of two strings but not for the first of them. -/
theorem marshalling_accounts_of_words :
    (ofArguments [47, 97] [[98]]).run.run { grants := (· ≠ 1) } =
      (.error (.allocationFailed 3), { grants := (· ≠ 1), requests := [3, 32] }) := by
  have hgranted : Heap.GrantsNext { grants := (· ≠ 1) } 1 := fun j hj => by
    obtain rfl := Nat.lt_one_iff.mp hj
    rfl
  exact (marshalling_accounts.1 [47, 97] [[98]]).fails _ 1 (by decide) hgranted rfl

end ArgumentArray

end OwnedHandles
