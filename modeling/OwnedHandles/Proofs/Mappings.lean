import Mathlib.Data.Finset.Basic
import OwnedHandles.Proofs.Calls
import OwnedHandles.Proofs.Runs

namespace OwnedHandles

structure Holdings where
  handles : Finset Fd
  mappings : List (AddressRange × Fd)
  deriving DecidableEq

namespace Holdings

def opening (s : Holdings) (fd : Fd) : Holdings := { s with handles := insert fd s.handles }

def closing (s : Holdings) (fd : Fd) : Holdings := { s with handles := s.handles.erase fd }

def mapping (s : Holdings) (range : AddressRange) (fd : Fd) : Holdings :=
  { s with mappings := (range, fd) :: s.mappings }

def unmapping (s : Holdings) (range : AddressRange) : Holdings :=
  { s with mappings := s.mappings.filter fun x => x.1 ≠ range }

def Backed (s : Holdings) : Prop := ∀ x ∈ s.mappings, x.2 ∈ s.handles

theorem closing_opening {s : Holdings} {fd : Fd} (hfd : fd ∉ s.handles) :
    (s.opening fd).closing fd = s := by
  simp [opening, closing, Finset.erase_insert hfd]

end Holdings

/-- What a call does to them. Numbers and addresses that are given out are not in use, closing frees
the number whatever it reports, and what is mapped can be unmapped. -/
def Call.changesHoldings (s : Holdings) : (c : Call) → c.Answer → Holdings → Prop
  | .openFile .., .ok fd, t => fd ∉ s.handles ∧ t = s.opening fd
  | .close fd, _, t => t = s.closing fd
  | .mapMemory size _ _ fd _, .ok start, t =>
    (∀ x ∈ s.mappings, x.1.start ≠ start) ∧ t = s.mapping ⟨start, size⟩ fd
  | .unmapMemory start size, a, t =>
    ((∃ fd, (⟨start, size⟩, fd) ∈ s.mappings) → a = .ok ()) ∧ t = s.unmapping ⟨start, size⟩
  | _, _, t => t = s

def World.holdings : World Holdings := World.alone Call.changesHoldings

/-- Only what is open is mapped, or closed once there is no mapping of it, and only what is mapped
is unmapped. -/
def Call.Respects (s : Holdings) : Call → Prop
  | .close fd => fd ∈ s.handles ∧ ∀ x ∈ s.mappings, x.2 ≠ fd
  | .mapMemory _ _ _ fd _ => fd ∈ s.handles
  | .unmapMemory start size => ∃ fd, (⟨start, size⟩, fd) ∈ s.mappings
  | .exit _ => False
  | _ => True

structure Account where
  holds : Holdings
  opened : List Fd
  closed : List Fd
  mapped : List AddressRange
  unmapped : List AddressRange

namespace Account

def empty : Account := ⟨⟨∅, []⟩, [], [], [], []⟩

/-- What was opened and is not held any more was closed once for each time it was opened, and
nothing else was; so with mappings. -/
structure Balanced (s : Account) : Prop where
  handles : ∀ fd, s.opened.count fd = s.closed.count fd + if fd ∈ s.holds.handles then 1 else 0
  mappings : ∀ range, s.mapped.count range =
    s.unmapped.count range + (s.holds.mappings.map Prod.fst).count range
  apart : (s.holds.mappings.map fun x => x.1.start).Nodup

theorem balanced_empty : empty.Balanced := ⟨fun _ => rfl, fun _ => rfl, List.nodup_nil⟩

theorem Balanced.settled {s : Account} (h : s.Balanced) (hs : s.holds = ⟨∅, []⟩) :
    s.closed.Perm s.opened ∧ s.unmapped.Perm s.mapped := by
  constructor
  · rw [List.perm_iff_count]
    intro fd
    simp [h.handles fd, hs]
  · rw [List.perm_iff_count]
    intro range
    simp [h.mappings range, hs]

end Account

def Call.opens : (c : Call) → c.Answer → List Fd
  | .openFile .., .ok fd => [fd]
  | _, _ => []

def Call.closes : Call → List Fd
  | .close fd => [fd]
  | _ => []

def Call.maps : (c : Call) → c.Answer → List AddressRange
  | .mapMemory size .., .ok start => [⟨start, size⟩]
  | _, _ => []

def Call.unmaps : Call → List AddressRange
  | .unmapMemory start size => [⟨start, size⟩]
  | _ => []

structure Call.ChangesAccount (s : Account) (c : Call) (a : c.Answer) (t : Account) : Prop where
  holds : c.changesHoldings s.holds a t.holds
  opened : t.opened = c.opens a ++ s.opened
  closed : t.closed = c.closes ++ s.closed
  mapped : t.mapped = c.maps a ++ s.mapped
  unmapped : t.unmapped = c.unmaps ++ s.unmapped

def World.accounts : World Account := World.alone Call.ChangesAccount

theorem Account.Balanced.step {s t : Account} {c : Call} {a : c.Answer} (h : s.Balanced)
    (hc : c.Respects s.holds) (ha : c.ChangesAccount s a t) : t.Balanced := by
  obtain ⟨holds, opened, closed, mapped, unmapped⟩ := t
  obtain ⟨hholds, rfl, rfl, rfl, rfl⟩ := ha
  obtain ⟨hhandles, hmappings, hapart⟩ := h
  have hsame (hholds : holds = s.holds) :
      Account.Balanced ⟨holds, s.opened, s.closed, s.mapped, s.unmapped⟩ := by
    subst hholds
    exact ⟨hhandles, hmappings, hapart⟩
  cases c with
  | openFile path flags mode =>
    cases a with
    | error e => exact hsame hholds
    | ok fd =>
      obtain ⟨hfd, rfl⟩ := hholds
      refine ⟨fun n => ?_, hmappings, hapart⟩
      by_cases hn : n = fd
      · subst hn
        simp [Call.opens, Call.closes, Holdings.opening, hhandles, hfd]
      · simp [Call.opens, Call.closes, Holdings.opening, hhandles, hn, Ne.symm hn]
  | close fd =>
    obtain rfl := hholds
    refine ⟨fun n => ?_, hmappings, hapart⟩
    by_cases hn : n = fd
    · subst hn
      simp [Call.opens, Call.closes, Holdings.closing, hhandles, hc.1]
    · simp [Call.opens, Call.closes, Holdings.closing, hhandles, hn, Ne.symm hn]
  | mapMemory size readable writable fd offset =>
    cases a with
    | error e => exact hsame hholds
    | ok start =>
      obtain ⟨hstart, rfl⟩ := hholds
      refine ⟨hhandles, fun range => ?_, List.nodup_cons.mpr ⟨?_, hapart⟩⟩
      · simp only [Call.maps, Call.unmaps, Holdings.mapping, List.map_cons, List.cons_append,
          List.nil_append, List.count_cons, hmappings]
        omega
      · simpa using hstart
  | unmapMemory start size =>
    obtain ⟨_, rfl⟩ := hholds
    obtain ⟨fd, hfd⟩ := hc
    refine ⟨hhandles, fun range => ?_, hapart.sublist (List.filter_sublist.map _)⟩
    have hdistinct : (s.holds.mappings.map Prod.fst).Nodup :=
      List.Nodup.of_map AddressRange.start (by rw [List.map_map]; exact hapart)
    have hlive : 0 < (s.holds.mappings.map Prod.fst).count ⟨start, size⟩ :=
      List.count_pos_iff.mpr (List.mem_map_of_mem hfd)
    have herase : (s.holds.mappings.filter fun x => x.1 ≠ ⟨start, size⟩).map Prod.fst =
        (s.holds.mappings.map Prod.fst).erase ⟨start, size⟩ := by
      rw [hdistinct.erase_eq_filter, List.filter_map]
      congr 1
      apply List.filter_congr
      intro x _
      by_cases hx : x.1 = ⟨start, size⟩ <;> simp [hx]
    simp only [Call.maps, Call.unmaps, Holdings.unmapping, herase, List.cons_append,
      List.nil_append, List.count_cons, List.count_erase, hmappings]
    by_cases hrange : (⟨start, size⟩ : AddressRange) = range
    · subst hrange
      simp only [beq_self_eq_true, if_true]
      omega
    · simp [hrange]
  | _ => exact hsame hholds

theorem World.accounts_refines :
    World.accounts.Refines World.holdings (fun t s => t.holds = s) fun s c => c.Respects s where
  moves _ hm := hm.elim
  answers := by
    rintro t t' _ c a rfl _ ha
    exact ⟨t'.holds, ha.holds, rfl⟩

theorem Call.ChangesAccount.of_holdings {s : Account} {c : Call} {a : c.Answer} {holds : Holdings}
    (h : c.changesHoldings s.holds a holds) : ∃ t, c.ChangesAccount s a t :=
  ⟨⟨holds, _, _, _, _⟩, h, rfl, rfl, rfl, rfl⟩

theorem World.accounts_canGoOn {s : Account} {c : Call} (hc : c.Respects s.holds) :
    World.accounts.CanGoOn s c := by
  suffices ∃ a holds, c.changesHoldings s.holds a holds by
    obtain ⟨a, holds, h⟩ := this
    obtain ⟨t, ht⟩ := Call.ChangesAccount.of_holdings h
    exact .inl ⟨a, t, ht⟩
  cases c with
  | probe => exact ⟨none, _, rfl⟩
  | close => exact ⟨.ok (), _, rfl⟩
  | unmapMemory => exact ⟨.ok (), _, fun _ => rfl, rfl⟩
  | exec => exact ⟨.EIO, _, rfl⟩
  | exit => exact hc.elim
  | pause => exact ⟨(), _, rfl⟩
  | _ => exact ⟨.error .EIO, _, rfl⟩

def Contract.respecting {α : Type} (returns : α → Holdings → Prop) : Contract Holdings α :=
  ⟨fun s c => c.Respects s, returns, fun _ _ => False, fun _ => False⟩

theorem World.Meets.respecting {α : Type} {q : Contract Holdings α} {R : α → Holdings → Prop}
    {p : Program α} {s : Holdings} (h : World.holdings.Meets (.respecting R) p s)
    (hcalls : ∀ t c, c.Respects t → q.calls t c) (hreturns : ∀ a t, R a t → q.returns a t) :
    World.holdings.Meets q p s :=
  h.weaken hcalls hreturns (fun _ _ h => h.elim) fun _ h => h.elim

section Steps

variable {s : Holdings} {name : String} {fd : Fd}

def Holdings.Opened (s : Holdings) (name : String) : Except Failure Descriptor → Holdings → Prop
  | .ok d, t => ∃ fd, fd ∉ s.handles ∧ d = .owning fd name ∧ t = s.opening fd
  | .error _, t => t = s

def Holdings.Closed (s : Holdings) (name : String) (r : Except Failure Unit) (t : Holdings) :
    Prop :=
  t = s ∧ (r = .ok () ∨ ∃ e, r = .error (.closeFailed name e))

theorem Descriptor.close_holdings (hs : s.Backed) (hfd : fd ∉ s.handles) :
    World.holdings.Meets (.respecting fun r t => r.2 = ⟨none, name⟩ ∧ s.Closed name r.1 t)
      (owning fd name).close (s.opening fd) := by
  have hrespects : Call.Respects (s.opening fd) (.close fd) :=
    ⟨Finset.mem_insert_self fd s.handles, fun x hx hfd' => hfd (hfd' ▸ hs x hx)⟩
  refine World.alone_call hrespects fun a t ht => ?_
  obtain rfl : t = s := ht.trans (Holdings.closing_opening hfd)
  cases a with
  | ok _ => exact World.alone_done ⟨rfl, rfl, .inl rfl⟩
  | error e => exact World.alone_done ⟨rfl, rfl, .inr ⟨e, rfl⟩⟩

theorem Descriptor.closeSafe_holdings (hs : s.Backed) (hfd : fd ∉ s.handles) :
    World.holdings.Meets (.respecting fun d t => d = ⟨none, name⟩ ∧ t = s)
      (owning fd name).closeSafe (s.opening fd) := by
  refine (World.meets_bind _ _ _).mpr ((close_holdings hs hfd).returning fun r t ht => ?_)
  obtain ⟨r, d⟩ := r
  obtain ⟨rfl, rfl, _⟩ := ht
  cases r <;> exact World.alone_done ⟨rfl, rfl⟩

theorem Descriptor.dropAll_holdings (name : String) (hs : s.Backed) (hfd : fd ∉ s.handles) :
    World.holdings.Meets (.respecting fun _ t => t = s) (dropAll [owning fd name])
      (s.opening fd) :=
  (World.meets_bind _ (owning fd name).drop _).mpr
    ((closeSafe_holdings hs hfd).returning fun _ _ ht => World.alone_done ht.2)

theorem Descriptor.setExactMode_holdings (hs : s.Backed) (hfd : fd ∉ s.handles) (perm : Mode) :
    World.holdings.Meets (.respecting fun r t => match r with
      | .ok _ => t = s.opening fd
      | .error _ => t = s) ((owning fd name).setExactMode fd perm).run (s.opening fd) := by
  refine World.alone_call trivial fun a t ht => ?_
  cases a with
  | ok _ => exact World.alone_done ht
  | error e =>
    obtain rfl : t = s.opening fd := ht
    refine (World.meets_lift_bind _ (owning fd name).drop _).mpr ?_
    exact (closeSafe_holdings hs hfd).returning fun d u hu => World.alone_done hu.2

theorem Descriptor.openFile_holdings (hs : s.Backed) (file : File) (flags : OpenFlags)
    (perm : Mode) : World.holdings.Meets (.respecting (s.Opened file.name))
      (openFile file flags perm).run s := by
  refine World.alone_call trivial fun kind t ht => ?_
  obtain rfl : t = s := ht
  refine World.alone_call trivial fun a u hu => ?_
  cases a with
  | error e => exact World.alone_done hu
  | ok fd =>
    obtain ⟨hfd, rfl⟩ := hu
    have hopened : World.holdings.Meets (.respecting (t.Opened file.name))
        (Program.done (.ok (owning fd file.name))) (t.opening fd) :=
      World.alone_done ⟨fd, hfd, rfl, rfl⟩
    change World.holdings.Meets _ (ExceptT.run (if _ then _ else _)) _
    split
    · refine (World.meets_action_bind _ _ _).mpr
        ((setExactMode_holdings hs hfd perm).returning fun r u hu => ?_)
      cases r with
      | ok _ => exact hu ▸ hopened
      | error e => exact World.alone_done hu
    · exact hopened

end Steps

namespace MappedFile

inductive Operation
  | map
  | unmap
  | release
  | onDrop
  | zero (rounds : Nat)

inductive Ending
  | returned (result : Except Failure Unit)
  | panicked (message : String)

structure Episode where
  operation : Operation
  ending : Ending

def perform (m : MappedFile) : Operation → Program (Except Failure Unit × MappedFile)
  | .map => m.map
  | .unmap => m.unmap
  | .release => m.release
  | .onDrop => m.letGo.bind fun m => .done (.ok (), m)
  | .zero rounds => (m.zero rounds).run.bind fun r => .done (r, m)

/-- Operations in a row. One that panics leaves the value as it was. -/
inductive Runs : MappedFile → Account → List Episode → MappedFile → Account → Prop
  | nil (m : MappedFile) (s : Account) : Runs m s [] m s
  | returned {m m' m'' : MappedFile} {s t u : Account} {o : Operation} {es : List Episode}
      {r : Except Failure Unit} : World.accounts.Returns (m.perform o) s (r, m') t →
      Runs m' t es m'' u → Runs m s (⟨o, .returned r⟩ :: es) m'' u
  | panicked {m m' : MappedFile} {s t u : Account} {o : Operation} {es : List Episode}
      {message : String} : World.accounts.Breaks (m.perform o) s message t →
      Runs m t es m' u → Runs m s (⟨o, .panicked message⟩ :: es) m' u

inductive Phase
  | idle
  | opened (fd : Fd)
  | mapped (fd : Fd) (start : Address)
  deriving DecidableEq

namespace Phase

def isMapped : Phase → Bool
  | mapped .. => true
  | _ => false

def file (m : MappedFile) : Phase → MappedFile
  | idle => { m with address := none, descriptor := none, mapped := false }
  | opened fd =>
    { m with address := none, descriptor := some (.owning fd m.file.name), mapped := false }
  | mapped fd start =>
    { m with address := some start, descriptor := some (.owning fd m.file.name), mapped := true }

def holdings (m : MappedFile) : Phase → Holdings
  | idle => ⟨∅, []⟩
  | opened fd => ⟨{fd}, []⟩
  | mapped fd start => ⟨{fd}, [(⟨start, m.size⟩, fd)]⟩

def Leads (m : MappedFile) (p : Phase) : Operation → Ending → Phase → Prop
  | .map, .panicked message, p' =>
    p.isMapped = true ∧ message = m.file.name ++ " is already mapped" ∧ p' = p
  | .map, .returned (.ok ()), p' => p.isMapped = false ∧ p'.isMapped = true
  | .map, .returned (.error f), p' => p.isMapped = false ∧
    (p' = p ∨ ∃ fd e, f = .callFailed "mmap" m.context e ∧ p' = opened fd)
  | .unmap, .returned r, p' | .release, .returned r, p' =>
    p' = idle ∧ (r = .ok () ∨ ∃ e, r = .error (.closeFailed m.file.name e))
  | .onDrop, .returned r, p' => p' = idle ∧ r = .ok ()
  | .unmap, .panicked _, _ | .release, .panicked _, _ | .onDrop, .panicked _, _ => False
  | .zero _, _, p' => p' = p

theorem backed (m : MappedFile) (p : Phase) : (p.holdings m).Backed := by
  cases p <;> simp [holdings, Holdings.Backed]

end Phase

section Descriptions

variable {file : File} {size offset : Nat} {readable writable : Bool} {permissions : Mode}
  {m : MappedFile}

theorem describe_ok_iff : describe file size offset readable writable permissions = .ok m ↔
    (readable || writable) = true ∧ size % Limits.pageSize = 0 ∧ offset % Limits.pageSize = 0 ∧
      m = { file, size, offset, readable, writable, permissions } := by
  unfold describe
  cases readable || writable with
  | false => simp
  | true =>
    by_cases hsize : size % Limits.pageSize = 0
    · by_cases hoffset : offset % Limits.pageSize = 0
      · simp [hsize, hoffset, eq_comm]
      · simp [hsize, hoffset]
    · simp [hsize]

theorem describe_eq (h : describe file size offset readable writable permissions = .ok m) :
    m = { file, size, offset, readable, writable, permissions } :=
  (describe_ok_iff.mp h).2.2.2

end Descriptions

theorem of_range {b : Bool} {address : Option Address} {size : Nat} {range : AddressRange}
    (h : (if b then address.map fun start => ⟨start, size⟩ else none) = some range) :
    address = some range.start ∧ range.length = size := by
  cases b with
  | false => cases h
  | true =>
    obtain ⟨start, rfl, rfl⟩ := Option.map_eq_some_iff.mp h
    exact ⟨rfl, rfl⟩

section Operations

variable {m : MappedFile} {fd : Fd} {start : Address}

def Reached (m : MappedFile) (P : Except Failure Unit → Phase → Prop)
    (r : Except Failure Unit × MappedFile) (t : Holdings) : Prop :=
  ∃ p, P r.1 p ∧ r.2 = p.file m ∧ t = p.holdings m

theorem openBacking_holdings {p : Phase} (hp : p.isMapped = false) :
    World.holdings.Meets (.respecting (m.Reached fun r p' => match r with
      | .ok _ => ∃ fd, p' = .opened fd
      | .error _ => p' = p)) (p.file m).openBacking (p.holdings m) := by
  refine (World.meets_bind _ _ _).mpr ((Descriptor.openFile_holdings (p.backed m)
    (p.file m).file _ _).returning fun r t ht => ?_)
  cases r with
  | error f => exact World.alone_done ⟨p, rfl, rfl, ht⟩
  | ok d =>
    obtain ⟨fd, hfd, rfl, rfl⟩ := ht
    cases p with
    | idle => exact World.alone_done ⟨.opened fd, ⟨fd, rfl⟩, rfl, rfl⟩
    | opened old =>
      -- the new descriptor is there before the old one is closed
      have hold : old ∉ ({fd} : Finset Fd) :=
        fun h => hfd (Finset.mem_singleton_self old |> (Finset.mem_singleton.mp h ▸ ·))
      have hboth : (Phase.holdings m (.opened old)).opening fd =
          (Phase.holdings m (.opened fd)).opening old := by
        simp [Phase.holdings, Holdings.opening, Finset.pair_comm]
      rw [hboth]
      refine (World.meets_bind _ (Descriptor.dropAll [.owning old m.file.name]) _).mpr
        ((Descriptor.dropAll_holdings _ (Phase.backed m (.opened fd)) hold).returning
          fun _ t ht => ?_)
      exact World.alone_done ⟨.opened fd, ⟨fd, rfl⟩, rfl, ht⟩
    | mapped _ _ => cases hp

theorem mapMemory_holdings (m : MappedFile) (fd : Fd) :
    World.holdings.Meets (.respecting (m.Reached fun r p =>
        (r = .ok () ∧ p.isMapped = true) ∨
          ∃ e, r = .error (.callFailed "mmap" m.context e) ∧ p = .opened fd))
      (mapMemory (Phase.file m (.opened fd))) (Phase.holdings m (.opened fd)) := by
  unfold mapMemory
  change World.holdings.Meets _ (if m.size = 0 then _ else _) _
  split
  · exact World.alone_done ⟨.opened fd, .inr ⟨.EINVAL, rfl, rfl⟩, rfl, rfl⟩
  · refine World.alone_call (Finset.mem_singleton_self fd) fun a t ht => ?_
    cases a with
    | ok start =>
      obtain ⟨_, rfl⟩ := ht
      exact World.alone_done ⟨.mapped fd start, .inl ⟨rfl, rfl⟩, rfl, rfl⟩
    | error e => exact World.alone_done ⟨.opened fd, .inr ⟨e, rfl, rfl⟩, rfl, ht⟩

theorem unmapMemory_holdings (m : MappedFile) (fd : Fd) (start : Address) :
    World.holdings.Meets (.respecting fun r t =>
        r = (.ok (), Phase.file m (.opened fd)) ∧ t = Phase.holdings m (.opened fd))
      (unmapMemory (Phase.file m (.mapped fd start))) (Phase.holdings m (.mapped fd start)) := by
  have hlive : ∃ x, (⟨start, m.size⟩, x) ∈ (Phase.holdings m (.mapped fd start)).mappings :=
    ⟨fd, List.mem_singleton_self _⟩
  refine World.alone_call hlive fun a t ht => ?_
  obtain ⟨hok, rfl⟩ := ht
  obtain rfl := hok hlive
  exact World.alone_done ⟨rfl, by simp [Phase.holdings, Phase.file, Holdings.unmapping]⟩

theorem closeBacking_holdings (m : MappedFile) (fd : Fd) :
    World.holdings.Meets (.respecting (m.Reached fun r p => p = .idle ∧
        (r = .ok () ∨ ∃ e, r = .error (.closeFailed m.file.name e))))
      (closeBacking (Phase.file m (.opened fd))) (Phase.holdings m (.opened fd)) := by
  refine (World.meets_bind _ _ _).mpr ((Descriptor.close_holdings (s := Phase.idle.holdings m)
    (Phase.idle.backed m) (Finset.notMem_empty fd)).returning fun r t ht => ?_)
  exact World.alone_done ⟨.idle, ⟨rfl, ht.2.2⟩, rfl, ht.2.1⟩

theorem map_holdings {p : Phase} (hp : p.isMapped = false) :
    World.holdings.Meets (.respecting (m.Reached fun r p' => p.Leads m .map (.returned r) p'))
      (p.file m).map (p.holdings m) := by
  have hmapped : (p.file m).mapped = false := by cases p <;> first | rfl | cases hp
  unfold map
  simp only [hmapped]
  refine (World.meets_bind _ (p.file m).openBacking _).mpr
    ((openBacking_holdings hp).returning fun r t ht => ?_)
  obtain ⟨r, m'⟩ := r
  obtain ⟨p', hp', rfl, rfl⟩ := ht
  cases r with
  | error f => exact World.alone_done ⟨p', ⟨hp, .inl hp'⟩, rfl, rfl⟩
  | ok _ =>
    obtain ⟨fd, rfl⟩ := hp'
    refine (mapMemory_holdings m fd).returning fun r t ht => ?_
    obtain ⟨r, m'⟩ := r
    obtain ⟨p', hp' | ⟨e, hr, rfl⟩, rfl, rfl⟩ := ht
    · obtain ⟨rfl, hp'⟩ := hp'
      exact ⟨p', ⟨hp, hp'⟩, rfl, rfl⟩
    · cases hr
      exact ⟨.opened fd, ⟨hp, .inr ⟨fd, e, rfl, rfl⟩⟩, rfl, rfl⟩

theorem unmap_holdings (m : MappedFile) (p : Phase) :
    World.holdings.Meets (.respecting (m.Reached fun r p' => p' = .idle ∧
        (r = .ok () ∨ ∃ e, r = .error (.closeFailed m.file.name e))))
      (p.file m).unmap (p.holdings m) := by
  cases p with
  | idle => exact World.alone_done ⟨.idle, ⟨rfl, .inl rfl⟩, rfl, rfl⟩
  | opened fd => exact closeBacking_holdings m fd
  | mapped fd start =>
    refine (World.meets_bind _ _ _).mpr ((unmapMemory_holdings m fd start).returning
      fun r t ht => ?_)
    obtain ⟨rfl, rfl⟩ := ht
    exact closeBacking_holdings m fd

theorem letGo_holdings (m : MappedFile) (p : Phase) :
    World.holdings.Meets (.respecting fun m' t =>
        m' = Phase.idle.file m ∧ t = Phase.idle.holdings m)
      (p.file m).letGo (p.holdings m) := by
  have hclosed (fd : Fd) : World.holdings.Meets
      (.respecting fun m' t => m' = Phase.idle.file m ∧ t = Phase.idle.holdings m)
      ((Descriptor.owning fd m.file.name).closeSafe.bind fun _ => .done (Phase.idle.file m))
      (Phase.holdings m (.opened fd)) := by
    refine (World.meets_bind _ _ _).mpr ((Descriptor.closeSafe_holdings
      (Phase.idle.backed m) (Finset.notMem_empty fd)).returning fun d t ht => ?_)
    exact World.alone_done ⟨rfl, ht.2⟩
  cases p with
  | idle => exact World.alone_done ⟨rfl, rfl⟩
  | opened fd => exact hclosed fd
  | mapped fd start =>
    refine (World.meets_bind _ _ _).mpr ((unmapMemory_holdings m fd start).returning
      fun r t ht => ?_)
    obtain ⟨rfl, rfl⟩ := ht
    exact hclosed fd

theorem zero_holdings (m : MappedFile) (p : Phase) (rounds : Nat) :
    World.holdings.Meets ⟨fun s c => c.Respects s, fun _ t => t = p.holdings m,
      fun _ t => t = p.holdings m, fun _ => True⟩ ((p.file m).zero rounds).run (p.holdings m) := by
  unfold zero
  cases hw : (p.file m).writable with
  | false => exact fun t ht => (World.others_alone _).mp ht
  | true =>
    refine (World.meets_action_bind _ (Descriptor.openFile _ _ _) _).mpr
      ((Descriptor.openFile_holdings (p.backed m) _ _ _).respecting (fun _ _ h => h)
        fun r t ht => ?_)
    cases r with
    | error f => exact World.alone_done ht
    | ok d =>
      obtain ⟨fd, hfd, rfl, rfl⟩ := ht
      have hdrop := Descriptor.dropAll_holdings (p.file m).file.name (p.backed m) hfd
      refine (World.meets_action_bind _ _ _).mpr ((World.meets_leaving _ _ _ _).mpr ?_)
      apply (fill_makes (P := fun c => ∃ fd data, c = .write fd data) (fun _ _ => ⟨_, _, rfl⟩)
        (p.file m) _ rounds).meets (fun t ht => (World.others_alone _).mp ht)
      · rintro _ a t ⟨fd, data, rfl⟩ ht
        exact ht
      · rintro _ ⟨fd, data, rfl⟩
        trivial
      · intro r
        cases r with
        | ok _ =>
          refine World.alone_done ((World.meets_lift_bind _ _ _).mpr
            ((Descriptor.close_holdings (p.backed m) hfd).respecting (fun _ _ h => h)
              fun r t ht => ?_))
          exact (World.meets_ofExcept _ _).mpr fun u hu => (World.others_alone _).mp hu ▸ ht.2.1
        | error f =>
          refine (World.meets_bind _ _ _).mpr (hdrop.respecting (fun _ _ h => h) fun _ t ht => ?_)
          exact World.alone_done (World.alone_done ht)
      · intro message
        refine (World.meets_bind _ _ _).mpr (hdrop.respecting (fun _ _ h => h) fun _ t ht => ?_)
        exact fun u hu => (World.others_alone _).mp hu ▸ ht
      · trivial

theorem map_mapped {m : MappedFile} (h : m.mapped = true) :
    m.map = .abort (m.file.name ++ " is already mapped") := by
  unfold map
  simp only [h]
  rfl

theorem perform_holdings (m : MappedFile) (p : Phase) (o : Operation) :
    World.holdings.Meets ⟨fun s c => c.Respects s,
      m.Reached fun r p' => p.Leads m o (.returned r) p',
      fun message t => p.Leads m o (.panicked message) p ∧ t = p.holdings m,
      fun _ => ∃ rounds, o = .zero rounds⟩ ((p.file m).perform o) (p.holdings m) := by
  cases o with
  | map =>
    cases hp : p.isMapped with
    | false =>
      exact (map_holdings hp).respecting (fun _ _ h => h) fun _ _ h => h
    | true =>
      have hmapped : (p.file m).mapped = true := by cases p <;> first | rfl | cases hp
      have hname : (p.file m).file = m.file := by cases p <;> rfl
      change World.holdings.Meets _ (p.file m).map _
      rw [map_mapped hmapped, hname]
      exact fun t ht => ⟨⟨hp, rfl, rfl⟩, (World.others_alone _).mp ht⟩
  | unmap | release =>
    exact (unmap_holdings m p).respecting (fun _ _ h => h) fun _ _ h => h
  | onDrop =>
    refine (World.meets_bind _ _ _).mpr ((letGo_holdings m p).respecting (fun _ _ h => h)
      fun m' t ht => ?_)
    exact World.alone_done ⟨.idle, ⟨rfl, rfl⟩, ht⟩
  | zero rounds =>
    refine (World.meets_bind _ _ _).mpr ((zero_holdings m p rounds).weaken (fun _ _ h => h)
      (fun r t ht => ?_) (fun _ _ h => ⟨rfl, h⟩) fun _ _ => ⟨rounds, rfl⟩)
    exact World.alone_done ⟨p, rfl, rfl, ht⟩

end Operations

namespace Phase

inductive Walks (m : MappedFile) : Phase → List Episode → Phase → Prop
  | nil (p : Phase) : Walks m p [] p
  | cons {p p' p'' : Phase} {e : Episode} {es : List Episode} :
      p.Leads m e.operation e.ending p' → Walks m p' es p'' → Walks m p (e :: es) p''

end Phase

section Runs

variable {m m' m₂ : MappedFile} {s t : Account} {p : Phase} {o : Operation}

theorem perform_accounts (hs : s.holds = p.holdings m) :
    World.accounts.Meets (Contract.along ⟨fun s c => c.Respects s,
      m.Reached fun r p' => p.Leads m o (.returned r) p',
      fun message t => p.Leads m o (.panicked message) p ∧ t = p.holdings m,
      fun _ => ∃ rounds, o = .zero rounds⟩ fun t s => t.holds = s) ((p.file m).perform o) s :=
  (m.perform_holdings p o).refine World.accounts_refines hs

theorem perform_balanced {x : Program (Except Failure Unit × MappedFile) × Account}
    (hholds : s.holds = p.holdings m) (hs : s.Balanced)
    (hreaches : World.accounts.Reaches ((p.file m).perform o, s) x) : x.2.Balanced :=
  (perform_accounts hholds).keeps (fun _ _ hm => hm.elim)
    (fun _ _ _ _ ⟨_, hst, hc⟩ ha hs => hs.step (hst ▸ hc) ha) hreaches hs

theorem Runs.walks {es : List Episode} (h : Runs m' s es m₂ t) (hm : m' = p.file m)
    (hholds : s.holds = p.holdings m) (hs : s.Balanced) :
    ∃ p', p.Walks m es p' ∧ m₂ = p'.file m ∧ t.holds = p'.holdings m ∧ t.Balanced := by
  induction h generalizing p with
  | nil m s => exact ⟨p, .nil p, hm, hholds, hs⟩
  | returned hreturns _ ih =>
    subst hm
    obtain ⟨_, rfl, p', hleads, hm', hholds'⟩ := (perform_accounts hholds).returns hreturns
    obtain ⟨p'', hwalks, hend⟩ := ih hm' hholds' (perform_balanced hholds hs hreturns)
    exact ⟨p'', .cons hleads hwalks, hend⟩
  | panicked hbreaks _ ih =>
    subst hm
    obtain ⟨_, rfl, hleads, hholds'⟩ := (perform_accounts hholds).breaks hbreaks
    obtain ⟨p', hwalks, hend⟩ := ih rfl hholds' (perform_balanced hholds hs hbreaks)
    exact ⟨p', .cons hleads hwalks, hend⟩

def Operation.settles : Operation → Bool
  | unmap | release | onDrop => true
  | map | zero _ => false

def Episode.RefusesMap (m : MappedFile) (e : Episode) : Prop :=
  ∃ errno, e = ⟨.map, .returned (.error (.callFailed "mmap" m.context errno))⟩

namespace Phase

variable {p p' : Phase} {e : Episode} {es before : List Episode}

theorem Leads.settled (h : p.Leads m e.operation e.ending p') (he : e.operation.settles = true) :
    p' = .idle := by
  obtain ⟨o, ending⟩ := e
  cases o with
  | map | zero => cases he
  | unmap | release | onDrop =>
    cases ending with
    | returned r => exact h.1
    | panicked message => exact h.elim

theorem Walks.settled (h : p.Walks m (before ++ [e]) p') (he : e.operation.settles = true) :
    p' = .idle := by
  induction before generalizing p with
  | nil =>
    obtain _ | ⟨hleads, ⟨⟩⟩ := h
    exact hleads.settled he
  | cons x before ih =>
    obtain _ | ⟨_, hrest⟩ := h
    exact ih hrest

theorem Leads.opened {fd : Fd} (h : p.Leads m e.operation e.ending (.opened fd)) :
    e.operation.settles = false ∧ (e.RefusesMap m ∨ p = .opened fd) := by
  obtain ⟨o, ending⟩ := e
  cases o with
  | map =>
    refine ⟨rfl, ?_⟩
    cases ending with
    | panicked message => exact .inr h.2.2.symm
    | returned r =>
      cases r with
      | ok _ => cases h.2
      | error f =>
        obtain ⟨_, hp | ⟨fd', errno, rfl, _⟩⟩ := h
        · exact .inr hp.symm
        · exact .inl ⟨errno, rfl⟩
  | unmap | release | onDrop =>
    cases ending with
    | returned r => cases h.1
    | panicked message => exact h.elim
  | zero => exact ⟨rfl, .inr h.symm⟩

theorem Walks.opened {fd : Fd} (h : p.Walks m es (.opened fd)) :
    (∃ before e after, es = before ++ e :: after ∧ e.RefusesMap m ∧
      ∀ x ∈ after, x.operation.settles = false) ∨
    (∃ fd', p = .opened fd') ∧ ∀ x ∈ es, x.operation.settles = false := by
  generalize hend : Phase.opened fd = p' at h
  induction h with
  | nil p => exact .inr ⟨⟨fd, hend.symm⟩, List.forall_mem_nil _⟩
  | @cons p p' p'' e es hleads _ ih =>
    obtain ⟨before, e', after, rfl, he', hafter⟩ | ⟨⟨fd', rfl⟩, hes⟩ := ih hend
    · exact .inl ⟨e :: before, e', after, rfl, he', hafter⟩
    · obtain ⟨he, hrefuses | rfl⟩ := hleads.opened
      · exact .inl ⟨[], e, es, rfl, hrefuses, hes⟩
      · exact .inr ⟨⟨fd', rfl⟩, List.forall_mem_cons.mpr ⟨he, hes⟩⟩

end Phase

theorem perform_completes (hholds : s.holds = p.holdings m)
    (hmap : o = .map → p.isMapped = false) (hzero : ∀ rounds, o ≠ .zero rounds)
    {x : Program (Except Failure Unit × MappedFile) × Account}
    (hreaches : World.accounts.Reaches ((p.file m).perform o, s) x) :
    ∃ r t, World.accounts.Reaches x (.done r, t) := by
  refine (perform_accounts hholds).completes ⟨fun _ => ⟨_, fun _ h => h.elim⟩⟩ (fun t c hc => ?_)
    (fun message t hbreaks => ?_) (fun t hgivesUp => ?_) hreaches
  · obtain ⟨_, rfl, hc⟩ := hc
    exact World.accounts_canGoOn hc
  · obtain ⟨_, _, hleads, _⟩ := hbreaks
    cases o with
    | map => simp [hmap rfl, Phase.Leads] at hleads
    | unmap | release | onDrop => exact hleads
    | zero rounds => exact hzero rounds rfl
  · obtain ⟨_, _, rounds, rfl⟩ := hgivesUp
    exact hzero rounds rfl

end Runs

/-- After operations in any order a mapped file is in one of three phases, and holds what goes with
it. -/
theorem runs_keep_phase {file : File} {size offset : Nat} {readable writable : Bool}
    {permissions : Mode} {m₀ m : MappedFile} {s : Account} {es : List Episode}
    (hnew : describe file size offset readable writable permissions = .ok m₀)
    (hruns : Runs m₀ .empty es m s) :
    (∃ p : Phase, m = p.file m₀ ∧ s.holds = p.holdings m₀ ∧ ∀ fd, p = .opened fd →
      ∃ before e after, es = before ++ e :: after ∧ e.RefusesMap m₀ ∧
        ∀ x ∈ after, x.operation.settles = false) ∧
    m.mapped = m.address.isSome ∧
    (m.slice?.isSome = (m.mapped && readable) ∧ m.mutableSlice?.isSome = (m.mapped && writable) ∧
      ∀ range, m.slice? = some range ∨ m.mutableSlice? = some range →
        m.address = some range.start ∧ range.length = size) ∧
    s.Balanced ∧
    (∀ before e, es = before ++ [e] → e.operation.settles = true →
      m = m₀ ∧ s.holds = ⟨∅, []⟩ ∧ s.closed.Perm s.opened ∧ s.unmapped.Perm s.mapped) ∧
    (∀ o c next t, World.accounts.Reaches (m.perform o, s) (.call c next, t) →
      c.Respects t.holds) ∧
    (m.mapped = true → m.map = .abort (file.name ++ " is already mapped")) ∧
    ∀ o, (o = .map → m.mapped = false) → (∀ rounds, o ≠ .zero rounds) →
      ∀ x, World.accounts.Reaches (m.perform o, s) x →
        ∃ r t, World.accounts.Reaches x (.done r, t) := by
  obtain rfl := describe_eq hnew
  set m₀ : MappedFile := { file, size, offset, readable, writable, permissions }
  obtain ⟨p, hwalks, rfl, hholds, hbalanced⟩ :=
    hruns.walks (m := m₀) (p := .idle) rfl rfl Account.balanced_empty
  have hmapped : (p.file m₀).mapped = p.isMapped := by cases p <;> rfl
  refine ⟨⟨p, rfl, hholds, ?_⟩, ?_, ?_, hbalanced, ?_, ?_, ?_, ?_⟩
  · rintro fd rfl
    exact hwalks.opened.resolve_right fun ⟨⟨fd', h⟩, _⟩ => by cases h
  · cases p <;> rfl
  · refine ⟨by cases p <;> cases readable <;> rfl, by cases p <;> cases writable <;> rfl, ?_⟩
    have hsize : (p.file m₀).size = size := by cases p <;> rfl
    rintro range (h | h)
    · exact hsize ▸ of_range h
    · exact hsize ▸ of_range h
  · rintro before e rfl he
    obtain rfl := hwalks.settled he
    exact ⟨rfl, hholds, hbalanced.settled hholds⟩
  · intro o c next t hreaches
    obtain ⟨_, rfl, hc⟩ := (perform_accounts hholds).calls hreaches
    exact hc
  · intro h
    rw [map_mapped h]
    cases p <;> rfl
  · intro o hmap hzero x hreaches
    exact perform_completes hholds (fun ho => hmapped ▸ hmap ho) hzero hreaches

/-- Mapped, and unmapped with an error of the close. -/
theorem runs_keep_phase_closing : ∃ m₀ m s es,
    describe ⟨[102]⟩ 4096 0 true false 0 = .ok m₀ ∧ Runs m₀ .empty es m s ∧ m = m₀ ∧
      s.opened = [3] ∧ s.closed.Perm s.opened ∧ s.mapped = [⟨8192, 4096⟩] ∧
      s.unmapped.Perm s.mapped := by
  let m₀ : MappedFile :=
    { file := ⟨[102]⟩, size := 4096, offset := 0, readable := true, writable := false
      permissions := 0 }
  have hnew : describe ⟨[102]⟩ 4096 0 true false 0 = .ok m₀ := by decide +kernel
  let opened : Account := ⟨⟨{3}, []⟩, [3], [], [], []⟩
  let mapped : Account := ⟨⟨{3}, [(⟨8192, 4096⟩, 3)]⟩, [3], [], [⟨8192, 4096⟩], []⟩
  let unmapped : Account := ⟨⟨{3}, []⟩, [3], [], [⟨8192, 4096⟩], [⟨8192, 4096⟩]⟩
  let closed : Account := ⟨⟨∅, []⟩, [3], [3], [⟨8192, 4096⟩], [⟨8192, 4096⟩]⟩
  have hmaps : World.accounts.Allows .empty [⟨.probe [102], some .regular⟩,
      ⟨.openFile [102] 0 0, .ok 3⟩, ⟨.mapMemory 4096 true false 3 0, .ok 8192⟩] mapped := by
    have hprobe : Call.ChangesAccount .empty (.probe [102]) (some .regular) .empty :=
      ⟨rfl, rfl, rfl, rfl, rfl⟩
    have hopen : Call.ChangesAccount .empty (.openFile [102] 0 0) (.ok 3) opened :=
      ⟨⟨by decide, rfl⟩, rfl, rfl, rfl, rfl⟩
    have hmap : Call.ChangesAccount opened (.mapMemory 4096 true false 3 0) (.ok 8192) mapped :=
      ⟨⟨List.forall_mem_nil _, rfl⟩, rfl, rfl, rfl, rfl⟩
    exact .answer hprobe (.answer hopen (.answer hmap (.nil _)))
  have hunmaps : World.accounts.Allows mapped [⟨.unmapMemory 8192 4096, .ok ()⟩,
      ⟨.close 3, .error .EIO⟩] closed := by
    have hunmap : Call.ChangesAccount mapped (.unmapMemory 8192 4096) (.ok ()) unmapped :=
      ⟨⟨fun _ => rfl, rfl⟩, rfl, rfl, rfl, rfl⟩
    have hclose : Call.ChangesAccount unmapped (.close 3) (.error .EIO) closed :=
      ⟨rfl, rfl, rfl, rfl, rfl⟩
    exact .answer hunmap (.answer hclose (.nil _))
  have hfirst : World.accounts.Returns (m₀.perform .map) .empty
      (.ok (), Phase.file m₀ (.mapped 3 8192)) mapped := hmaps.returns (by decide +kernel)
  have hsecond : World.accounts.Returns (perform (Phase.file m₀ (.mapped 3 8192)) .unmap) mapped
      (.error (.closeFailed "f" .EIO), m₀) closed := hunmaps.returns (by decide +kernel)
  have hruns : Runs m₀ .empty [⟨.map, .returned (.ok ())⟩,
      ⟨.unmap, .returned (.error (.closeFailed "f" .EIO))⟩] m₀ closed :=
    .returned hfirst (.returned hsecond (.nil _ _))
  obtain ⟨_, _, _, _, hsettled, _⟩ := runs_keep_phase hnew hruns
  obtain ⟨hm, _, hclosed, hunmapped⟩ := hsettled [⟨.map, .returned (.ok ())⟩] _ rfl rfl
  exact ⟨m₀, m₀, _, _, hnew, hruns, hm, rfl, hclosed, rfl, hunmapped⟩

end MappedFile

end OwnedHandles
