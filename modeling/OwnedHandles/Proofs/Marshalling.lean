import OwnedHandles.Launch.Plan

namespace OwnedHandles

def ArgumentArray.entryString (entry : Bytes × Bytes) : Bytes :=
  entry.1 ++ equals :: entry.2

inductive LaunchString
  | word (s : Bytes)
  | entry (key value : Bytes)

namespace LaunchString

open ArgumentArray (equals)

def Invalid : LaunchString → Prop
  | word s => 0 ∈ s
  | entry key value => key = [] ∨ equals ∈ key ∨ 0 ∈ key ∨ 0 ∈ value

instance : DecidablePred Invalid
  | word s => inferInstanceAs (Decidable (0 ∈ s))
  | entry key value =>
    inferInstanceAs (Decidable (key = [] ∨ equals ∈ key ∨ 0 ∈ key ∨ 0 ∈ value))

def named : LaunchString → Bytes
  | word s => s
  | entry key value => if key = [] ∨ equals ∈ key then key else key ++ equals :: value

def refusal (x : LaunchString) : Failure := .invalidString (Text.decodeLossy x.named)

theorem refusal_of_named {x : LaunchString} {s : Bytes} (h : x.named = s) :
    x.refusal = .invalidString (Text.decodeLossy s) := by
  rw [refusal, h]

def ofLaunch (program : Bytes) (params : List Bytes) (env : Option Environment) :
    List LaunchString :=
  (program :: params).map word ++
    (env.elim [] (·.entries)).map fun entry => .entry entry.1 entry.2

def ofWords (program : Bytes) (params : List Bytes) : List LaunchString :=
  (program :: params).map word

def ofEntries (env : Environment) : List LaunchString :=
  env.entries.map fun entry => .entry entry.1 entry.2

theorem ofLaunch_eq (program : Bytes) (params : List Bytes) (env : Option Environment) :
    ofLaunch program params env = ofWords program params ++ env.elim [] ofEntries := by
  cases env <;> rfl

theorem ofWords_named (program : Bytes) (params : List Bytes) :
    (ofWords program params).map named = program :: params := by
  simp [ofWords, named, Function.comp_def]

theorem ofEntries_named {env : Environment} (h : ∀ x ∈ ofEntries env, ¬x.Invalid) :
    (ofEntries env).map named = env.entries.map ArgumentArray.entryString := by
  rw [ofEntries, List.map_map]
  refine List.map_congr_left fun entry hentry => if_neg fun hkey => ?_
  exact h _ (List.mem_map_of_mem hentry) (hkey.imp_right .inl)

def judge {α : Type} (xs : List LaunchString) (a : α) : Except Failure α :=
  match xs.find? (·.Invalid) with
  | some x => .error x.refusal
  | none => .ok a

variable {α : Type} {xs : List LaunchString}

theorem judge_eq_ok (h : ∀ x ∈ xs, ¬x.Invalid) (a : α) : judge xs a = .ok a := by
  have hnone : xs.find? (·.Invalid) = none := by simpa using h
  simp [judge, hnone]

end LaunchString

def Failure.OfMarshalling : Failure → Prop
  | invalidString _ | allocationFailed _ => True
  | _ => False

inductive Demand
  | memory (bytes : Nat)
  | refusal (f : Failure)

def Demand.refusal? : Demand → Option Failure
  | refusal f => some f
  | memory _ => none

def LaunchString.demand (x : LaunchString) : Demand :=
  if x.Invalid then .refusal x.refusal else .memory (x.named.length + 1)

theorem LaunchString.demand_of_invalid {x : LaunchString} (hx : x.Invalid) :
    x.demand = .refusal x.refusal := if_pos hx

theorem LaunchString.demand_of_valid {x : LaunchString} (hx : ¬x.Invalid) :
    x.demand = .memory (x.named.length + 1) := if_neg hx

namespace Heap

def serve (h : Heap) : List Demand → Except Failure Unit × Heap
  | [] => (.ok (), h)
  | .refusal f :: _ => (.error f, h)
  | .memory bytes :: ds =>
    let asked : Heap := { h with requests := bytes :: h.requests }
    if h.grants h.requests.length then asked.serve ds else (.error (.allocationFailed bytes), asked)

theorem serve_append (h : Heap) (ds es : List Demand) :
    h.serve (ds ++ es) = match h.serve ds with
      | (.ok (), h') => h'.serve es
      | (.error f, h') => (.error f, h') := by
  induction ds generalizing h with
  | nil => rfl
  | cons d ds ih =>
    cases d with
    | refusal f => rfl
    | memory bytes =>
      simp only [List.cons_append, serve]
      split
      · exact ih _
      · rfl

theorem serve_withLive (h : Heap) (live : List Block) (ds : List Demand) :
    serve { h with live } ds = ((h.serve ds).1, { (h.serve ds).2 with live }) := by
  induction ds generalizing h with
  | nil => rfl
  | cons d ds ih =>
    cases d with
    | refusal f => rfl
    | memory bytes =>
      simp only [serve]
      split
      · exact ih { h with requests := bytes :: h.requests }
      · rfl

theorem serve_requests {h h' : Heap} {ds : List Demand} (hserve : h.serve ds = (.ok (), h')) :
    h'.requests.length = h.requests.length + ds.length := by
  induction ds generalizing h with
  | nil =>
    cases hserve
    rfl
  | cons d ds ih =>
    cases d with
    | refusal f => cases hserve
    | memory bytes =>
      simp only [serve] at hserve
      split at hserve
      · rw [ih hserve, List.length_cons, List.length_cons]
        omega
      · cases hserve

theorem serve_of_grants {h : Heap} (hgrants : ∀ n, h.grants n = true) (ds : List Demand) :
    (h.serve ds).1 = match ds.findSome? Demand.refusal? with
      | some f => .error f
      | none => .ok () := by
  induction ds generalizing h with
  | nil => rfl
  | cons d ds ih =>
    cases d with
    | refusal f => rfl
    | memory bytes =>
      simp only [serve, if_pos (hgrants _)]
      exact ih hgrants

theorem foldl_erase_append (blocks live : List Block) :
    blocks.foldl List.erase (blocks ++ live) = live := by
  induction blocks with
  | nil => rfl
  | cons b blocks ih => simpa using ih

end Heap

namespace Allocating

variable {α β : Type} {n : Nat} {owned : List Block} {ds es : List Demand}
  {P : α → List Block → Prop} {Q : β → List Block → Prop}

/-- Beginning with request number `n`, the computation makes these demands, with some blocks to
answer for. If a demand fails it has given these back, and everything else that it got. Else it
comes to such a value, which answers for such blocks. -/
def Builds (m : Allocating α) (n : Nat) (owned : List Block) (ds : List Demand)
    (P : α → List Block → Prop) : Prop :=
  ∀ (h : Heap) (live : List Block), h.requests.length = n → h.live = owned ++ live →
    match h.serve ds with
    | (.error f, h') => m.run.run h = (.error f, { h' with live })
    | (.ok (), h') =>
      ∃ a blocks, m.run.run h = (.ok a, { h' with live := blocks ++ live }) ∧ P a blocks

theorem run_bind (m : Allocating α) (f : α → Allocating β) (h : Heap) :
    (m >>= f).run.run h = match m.run.run h with
      | (.ok a, h') => (f a).run.run h'
      | (.error e, h') => (.error e, h') := by
  change (match m.run.run h with
    | (r, h') => (ExceptT.bindCont f r).run h') = _
  obtain ⟨r, h'⟩ := m.run.run h
  cases r <;> rfl

theorem releasing_run (blocks : List Block) (m : Allocating α) (h : Heap) :
    (m.releasing blocks).run.run h = match m.run.run h with
      | (.ok a, h') => (.ok a, h')
      | (.error e, h') => (.error e, h'.release blocks) := by
  cases hrun : m.run.run h with
  | mk r h' =>
    change StateT.run m h = (r, h') at hrun
    simp only [releasing, tryCatch, tryCatchThe, MonadExceptOf.tryCatch, ExceptT.tryCatch,
      ExceptT.run_mk, StateT.run_bind, hrun]
    cases r <;> rfl

theorem builds_pure {a : α} (ha : P a owned) : (pure a : Allocating α).Builds n owned [] P := by
  intro h live _ hlive
  refine ⟨a, owned, ?_, ha⟩
  rw [← hlive]
  rfl

theorem builds_throw (f : Failure) : (throw f : Allocating α).Builds n [] [.refusal f] P := by
  rintro h live - rfl
  rfl

theorem Builds.bind {m : Allocating α} {f : α → Allocating β} (hm : m.Builds n owned ds P)
    (hf : ∀ a blocks, P a blocks → (f a).Builds (n + ds.length) blocks es Q) :
    (m >>= f).Builds n owned (ds ++ es) Q := by
  intro h live hn hlive
  have hfirst := hm h live hn hlive
  rw [Heap.serve_append, run_bind]
  -- The demands do not depend on what is live, so the rest may begin with these blocks.
  cases hserve : h.serve ds with
  | mk r h' =>
    rw [hserve] at hfirst
    cases r with
    | error e =>
      dsimp only at hfirst ⊢
      rw [hfirst]
    | ok _ =>
      obtain ⟨a, blocks, hrun, ha⟩ := hfirst
      dsimp only
      rw [hrun]
      have hrest := hf a blocks ha { h' with live := blocks ++ live } live
        ((Heap.serve_requests hserve).trans (congrArg (· + ds.length) hn)) rfl
      rw [Heap.serve_withLive] at hrest
      cases hserved : h'.serve es with
      | mk r h'' =>
        rw [hserved] at hrest
        cases r <;> exact hrest

theorem Builds.last {m : Allocating α} {f : α → Allocating β} (hm : m.Builds n owned ds P)
    (hf : ∀ a blocks, P a blocks → (f a).Builds (n + ds.length) blocks [] Q) :
    (m >>= f).Builds n owned ds Q := by
  rw [← ds.append_nil]
  exact hm.bind hf

theorem Builds.weaken {P' : α → List Block → Prop} {m : Allocating α} (hm : m.Builds n owned ds P)
    (hP : ∀ a blocks, P a blocks → P' a blocks) : m.Builds n owned ds P' := by
  intro h live hn hlive
  have hbuilds := hm h live hn hlive
  split at hbuilds
  · exact hbuilds
  · obtain ⟨a, blocks, hrun, ha⟩ := hbuilds
    exact ⟨a, blocks, hrun, hP a blocks ha⟩

theorem Builds.releasing {m : Allocating α} (hm : m.Builds n [] ds P) (blocks : List Block) :
    (m.releasing blocks).Builds n blocks ds fun a bs => ∃ new, bs = new ++ blocks ∧ P a new := by
  intro h live hn hlive
  have hbuilds := hm h (blocks ++ live) hn hlive
  rw [releasing_run]
  cases hserve : h.serve ds with
  | mk r h' =>
    rw [hserve] at hbuilds
    cases r with
    | error e =>
      dsimp only at hbuilds ⊢
      rw [hbuilds]
      exact congrArg (fun live => (Except.error e, { h' with live }))
        (Heap.foldl_erase_append blocks live)
    | ok _ =>
      obtain ⟨a, new, hrun, ha⟩ := hbuilds
      dsimp only
      rw [hrun, ← List.append_assoc]
      exact ⟨a, new ++ blocks, rfl, new, rfl, ha⟩

end Allocating

def Block.numbered (n : Nat) : List Nat → List Block
  | [] => []
  | bytes :: sizes => ⟨n, bytes⟩ :: numbered (n + 1) sizes

theorem Block.numbered_append (n : Nat) (as bs : List Nat) :
    numbered n (as ++ bs) = numbered n as ++ numbered (n + as.length) bs := by
  induction as generalizing n with
  | nil => rfl
  | cons a as ih =>
    simp only [List.cons_append, numbered, ih, List.length_cons]
    rw [Nat.add_right_comm, Nat.add_assoc]

namespace Heap

theorem request_run (bytes : Nat) (h : Heap) :
    (request bytes).run.run h =
      if h.grants h.requests.length then
        (.ok ⟨h.requests.length, bytes⟩,
          { h with requests := bytes :: h.requests, live := ⟨h.requests.length, bytes⟩ :: h.live })
      else (.error (.allocationFailed bytes), { h with requests := bytes :: h.requests }) := by
  change (if _ then _ else _ : Allocating Block).run.run h = _
  split <;> rfl

theorem request_builds (bytes n : Nat) :
    (request bytes).Builds n [] [.memory bytes] fun b bs => b = ⟨n, bytes⟩ ∧ bs = [b] := by
  rintro h live rfl rfl
  rw [request_run, serve]
  by_cases hgrants : h.grants h.requests.length = true
  · rw [if_pos hgrants, if_pos hgrants]
    exact ⟨_, [_], rfl, rfl, rfl⟩
  · rw [if_neg hgrants, if_neg hgrants]

def roomSizes (bytes : Nat) : List Nat := if bytes = 0 then [] else [bytes]

theorem reserve_builds (bytes n : Nat) :
    (reserve bytes).Builds n [] ((roomSizes bytes).map .memory) fun b bs =>
      b.toList = Block.numbered n (roomSizes bytes) ∧ bs = b.toList := by
  unfold reserve roomSizes
  split
  · exact Allocating.builds_pure ⟨rfl, rfl⟩
  · refine (request_builds bytes n).last fun b bs hb => Allocating.builds_pure ?_
    obtain ⟨rfl, rfl⟩ := hb
    exact ⟨rfl, rfl⟩

end Heap

namespace LaunchString

def sizes (xs : List LaunchString) : List Nat :=
  Heap.roomSizes (ArgumentArray.stringHeader * xs.length) ++ (xs.map fun x => x.named.length + 1) ++
    [ArgumentArray.pointerSize * (xs.length + 1)]

def demands (xs : List LaunchString) : List Demand :=
  (Heap.roomSizes (ArgumentArray.stringHeader * xs.length)).map .memory ++ xs.map demand ++
    [.memory (ArgumentArray.pointerSize * (xs.length + 1))]

theorem findSome?_demands (xs : List LaunchString) :
    (demands xs).findSome? Demand.refusal? = (xs.find? (·.Invalid)).map refusal := by
  have hmemory (sizes : List Nat) : (sizes.map Demand.memory).findSome? Demand.refusal? = none := by
    simp [Demand.refusal?]
  have hstrings :
      (xs.map demand).findSome? Demand.refusal? = (xs.find? (·.Invalid)).map refusal := by
    induction xs with
    | nil => rfl
    | cons x xs ih =>
      by_cases hx : x.Invalid
      · simp [List.findSome?_cons, demand_of_invalid hx, Demand.refusal?, hx]
      · simpa [List.findSome?_cons, demand_of_valid hx, Demand.refusal?, hx] using ih
  unfold demands
  rw [List.findSome?_append, List.findSome?_append, hmemory, hstrings]
  exact Option.or_none

def launchDemands (program : Bytes) (params : List Bytes) (env : Option Environment) :
    List Demand :=
  demands (ofWords program params) ++ env.elim [] fun e => demands (ofEntries e)

theorem findSome?_launchDemands (program : Bytes) (params : List Bytes)
    (env : Option Environment) :
    (launchDemands program params env).findSome? Demand.refusal? =
      ((ofLaunch program params env).find? (·.Invalid)).map refusal := by
  rw [launchDemands, List.findSome?_append, findSome?_demands, ofLaunch_eq, List.find?_append,
    Option.map_or]
  congr 1
  cases env with
  | none => rfl
  | some env => exact findSome?_demands _

end LaunchString

namespace ArgumentArray

open Allocating

variable {α : Type} {marshal : α → Allocating CString} {item : α → LaunchString}

def Marshals (marshal : α → Allocating CString) (item : α → LaunchString) : Prop :=
  ∀ x n, (marshal x).Builds n [] [(item x).demand] fun s bs =>
    s.bytes = (item x).named ∧ s.block = ⟨n, (item x).named.length + 1⟩ ∧ bs = [s.block]

theorem marshalString_builds {parts : List Bytes} {x : LaunchString}
    (hinvalid : x.Invalid ↔ 0 ∈ parts.flatten) (hnamed : x.named = parts.flatten) (n : Nat) :
    (marshalString parts).Builds n [] [x.demand] fun s bs =>
      s.bytes = x.named ∧ s.block = ⟨n, x.named.length + 1⟩ ∧ bs = [s.block] := by
  unfold marshalString
  by_cases hx : x.Invalid
  · rw [dif_pos (hinvalid.mp hx), LaunchString.demand_of_invalid hx,
      LaunchString.refusal_of_named hnamed]
    exact builds_throw _
  · rw [dif_neg (mt hinvalid.mpr hx), LaunchString.demand_of_valid hx, hnamed]
    refine (Heap.request_builds _ n).last fun b bs hb => builds_pure ?_
    obtain ⟨rfl, rfl⟩ := hb
    exact ⟨rfl, rfl, rfl⟩

theorem marshalWord_marshals : Marshals marshalWord .word := fun s n =>
  marshalString_builds (by simp [LaunchString.Invalid]) (by simp [LaunchString.named]) n

theorem zero_ne_equals : (0 : UInt8) ≠ equals := by decide

theorem marshalEntry_marshals : Marshals marshalEntry fun entry => .entry entry.1 entry.2 := by
  rintro ⟨key, value⟩ n
  unfold marshalEntry
  by_cases hkey : key = [] ∨ equals ∈ key
  · have hinvalid : (LaunchString.entry key value).Invalid := hkey.imp_right .inl
    have hnamed : (LaunchString.entry key value).named = key := if_pos hkey
    rw [if_pos hkey, LaunchString.demand_of_invalid hinvalid, LaunchString.refusal_of_named hnamed]
    -- What follows the refusal is never reached.
    exact (builds_throw _).last (P := fun _ _ => False) nofun
  · rw [if_neg hkey]
    exact marshalString_builds (by simp [LaunchString.Invalid, not_or.mp hkey, zero_ne_equals])
      (by simp [LaunchString.named, hkey]) n

theorem marshalAll_builds (hmarshal : Marshals marshal item) (xs : List α) (n : Nat) :
    (marshalAll marshal xs).Builds n [] (xs.map fun x => (item x).demand) fun ss bs =>
      ss.map CString.bytes = xs.map (fun x => (item x).named) ∧
      ss.map CString.block = Block.numbered n (xs.map fun x => (item x).named.length + 1) ∧
      bs = (ss.map CString.block).reverse := by
  induction xs generalizing n with
  | nil => exact builds_pure ⟨rfl, rfl, rfl⟩
  | cons x xs ih =>
    refine (hmarshal x n).bind fun s bs hs => ?_
    obtain ⟨hbytes, hblock, rfl⟩ := hs
    refine ((ih (n + 1)).releasing [s.block]).last fun ss bs hss => builds_pure ?_
    obtain ⟨_, rfl, htexts, hblocks, rfl⟩ := hss
    exact ⟨by simp [hbytes, htexts], by simp [hblock, hblocks, Block.numbered], by simp⟩

theorem terminate_builds (room : Option Block) (strings : List CString) (n : Nat) :
    (terminate room strings).Builds n ((strings.map CString.block).reverse ++ room.toList)
      [.memory (pointerSize * (strings.length + 1))] fun a bs =>
        a = { strings, room, pointers := strings.map (fun s => some s.block) ++ [none]
              table := ⟨n, pointerSize * (strings.length + 1)⟩ } ∧ bs = a.blocks := by
  refine ((Heap.request_builds _ n).releasing _).last fun b bs hb => builds_pure ?_
  obtain ⟨_, rfl, rfl, rfl⟩ := hb
  exact ⟨rfl, rfl⟩

namespace Stored

/-- The array is one of these strings, made by the requests from number `n` on. -/
structure Holds (a : Stored) (n : Nat) (xs : List LaunchString) : Prop where
  texts : a.strings.map CString.bytes = xs.map LaunchString.named
  pointers_eq : a.pointers = a.strings.map (fun s => some s.block) ++ [none]
  blocks_eq : a.blocks.reverse = Block.numbered n (LaunchString.sizes xs)

theorem Holds.seen_eq {a : Stored} {n : Nat} {xs : List LaunchString} (h : a.Holds n xs) :
    a.seen = ⟨xs.map LaunchString.named⟩ :=
  congrArg ArgumentArray.mk h.texts

end Stored

theorem build_builds (hmarshal : Marshals marshal item) (xs : List α) (n : Nat) :
    (build marshal xs).Builds n [] (LaunchString.demands (xs.map item)) fun a bs =>
      a.Holds n (xs.map item) ∧ bs = a.blocks := by
  rw [LaunchString.demands, List.append_assoc, List.length_map, List.map_map]
  refine (Heap.reserve_builds _ n).bind fun room bs hroom => ?_
  obtain ⟨hroom, rfl⟩ := hroom
  refine ((marshalAll_builds hmarshal xs _).releasing room.toList).bind fun ss bs hss => ?_
  obtain ⟨_, rfl, htexts, hblocks, rfl⟩ := hss
  -- The size of the table follows from the strings that were made, of which there are as many.
  have hlength : ss.length = xs.length := by simpa using congrArg List.length htexts
  rw [← hlength]
  refine (terminate_builds room ss _).weaken fun a bs ha => ?_
  obtain ⟨rfl, rfl⟩ := ha
  refine ⟨⟨?_, rfl, ?_⟩, rfl⟩
  · rw [htexts, List.map_map]
    rfl
  · have hreverse : room.toList.reverse = room.toList := by cases room <;> rfl
    rw [hroom] at hreverse
    simp [LaunchString.sizes, Stored.blocks, Block.numbered_append, Block.numbered, hreverse, hroom,
      hblocks, hlength, Nat.add_assoc, Function.comp_def]

theorem ofArguments_builds (program : Bytes) (params : List Bytes) (n : Nat) :
    (ofArguments program params).Builds n []
      (LaunchString.demands (LaunchString.ofWords program params)) fun a bs =>
        a.Holds n (LaunchString.ofWords program params) ∧ bs = a.blocks :=
  build_builds marshalWord_marshals _ n

theorem ofEnvironment_builds (env : Environment) (n : Nat) :
    (ofEnvironment env).Builds n [] (LaunchString.demands (LaunchString.ofEntries env)) fun a bs =>
      a.Holds n (LaunchString.ofEntries env) ∧ bs = a.blocks :=
  build_builds marshalEntry_marshals _ n

end ArgumentArray

namespace LaunchPlan

open Allocating

structure IsFor (plan : LaunchPlan) (program : Bytes) (params : List Bytes)
    (env : Option Environment) : Prop where
  strings_eq : plan.arguments.strings = program :: params
  environment_eq : plan.environment.map (·.strings) =
    env.map fun e => e.entries.map ArgumentArray.entryString
  commandLine_eq : plan.commandLine = OwnedHandles.commandLine program params

def ofStrings (program : Bytes) (params : List Bytes) (env : Option Environment) : LaunchPlan where
  arguments := ⟨program :: params⟩
  environment := env.map fun e => ⟨e.entries.map ArgumentArray.entryString⟩
  commandLine := OwnedHandles.commandLine program params

def ofNamed (program : Bytes) (params : List Bytes) (env : Option Environment) : LaunchPlan where
  arguments := ⟨(LaunchString.ofWords program params).map LaunchString.named⟩
  environment := env.map fun e => ⟨(LaunchString.ofEntries e).map LaunchString.named⟩
  commandLine := OwnedHandles.commandLine program params

variable {program : Bytes} {params : List Bytes} {env : Option Environment}

theorem ofNamed_eq (h : ∀ x ∈ LaunchString.ofLaunch program params env, ¬x.Invalid) :
    ofNamed program params env = ofStrings program params env := by
  rw [LaunchString.ofLaunch_eq] at h
  rw [ofNamed, LaunchString.ofWords_named]
  cases env with
  | none => rfl
  | some env =>
    rw [Option.map_some, LaunchString.ofEntries_named fun x hx => h x (List.mem_append_right _ hx)]
    rfl

theorem marshal_builds (program : Bytes) (params : List Bytes) (env : Option Environment) :
    (marshal program params env).Builds 0 [] (LaunchString.launchDemands program params env)
      fun plan _ => plan = ofNamed program params env := by
  refine (ArgumentArray.ofArguments_builds program params 0).bind fun a bs ha => ?_
  obtain ⟨ha, rfl⟩ := ha
  cases env with
  | none =>
    have hnone (n : Nat) : (pure none : Allocating (Option ArgumentArray.Stored)).Builds n [] []
        fun e _ => e = none := builds_pure rfl
    refine ((hnone _).releasing _).last fun e _ he => builds_pure ?_
    obtain ⟨_, -, rfl⟩ := he
    rw [ha.seen_eq]
    rfl
  | some env =>
    have hsome (n : Nat) : (some <$> ArgumentArray.ofEnvironment env).Builds n []
        (LaunchString.demands (LaunchString.ofEntries env)) fun e _ =>
          e.map ArgumentArray.Stored.seen =
            some ⟨(LaunchString.ofEntries env).map LaunchString.named⟩ :=
      (ArgumentArray.ofEnvironment_builds env n).last fun a _ h =>
        builds_pure (congrArg some h.1.seen_eq)
    refine ((hsome _).releasing _).last fun e _ he => builds_pure ?_
    obtain ⟨_, -, he⟩ := he
    rw [ha.seen_eq, he]
    rfl

theorem make_eq_judge (program : Bytes) (params : List Bytes) (env : Option Environment) :
    make program params env =
      LaunchString.judge (LaunchString.ofLaunch program params env)
        (ofStrings program params env) := by
  have hserve := Heap.serve_of_grants (h := {}) (fun _ => rfl)
    (LaunchString.launchDemands program params env)
  have hbuilds := marshal_builds program params env {} [] rfl rfl
  cases hserved : Heap.serve {} (LaunchString.launchDemands program params env) with
  | mk r h' =>
    rw [hserved] at hbuilds
    rw [hserved, LaunchString.findSome?_launchDemands] at hserve
    unfold make LaunchString.judge
    cases hfind : (LaunchString.ofLaunch program params env).find? (·.Invalid) with
    | some x =>
      obtain rfl : r = .error x.refusal := by simpa [hfind] using hserve
      exact congrArg Prod.fst hbuilds
    | none =>
      obtain rfl : r = .ok () := by simpa [hfind] using hserve
      obtain ⟨plan, blocks, hrun, hplan⟩ := hbuilds
      rw [hplan, ofNamed_eq (by simpa using hfind)] at hrun
      exact congrArg Prod.fst hrun

theorem isFor_of_make {plan : LaunchPlan} (h : make program params env = .ok plan) :
    plan.IsFor program params env := by
  rw [make_eq_judge, LaunchString.judge] at h
  split at h
  · cases h
  · cases h
    refine ⟨rfl, ?_, rfl⟩
    cases env <;> rfl

theorem ofMarshalling_of_make {e : Failure} (h : make program params env = .error e) :
    e.OfMarshalling := by
  rw [make_eq_judge, LaunchString.judge] at h
  split at h
  · cases h
    trivial
  · cases h

theorem exists_make (h : ∀ s ∈ program :: params, 0 ∉ s) :
    ∃ plan, make program params none = .ok plan := by
  refine ⟨ofStrings program params none,
    (make_eq_judge _ _ _).trans (LaunchString.judge_eq_ok ?_ _)⟩
  intro x hx
  obtain ⟨s, hs, rfl⟩ := List.mem_map.mp ((List.mem_append.mp hx).resolve_right nofun)
  exact h s hs

end LaunchPlan

end OwnedHandles
