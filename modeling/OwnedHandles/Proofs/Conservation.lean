import OwnedHandles.Proofs.Channel
import OwnedHandles.Proofs.Encoding
import OwnedHandles.Proofs.Threads

namespace OwnedHandles

inductive Dealing
  | send (c : FifoConnection) (message : Bytes)
  | read (c : FifoConnection) (rounds : Nat)

inductive Dealt
  | sent (message : Bytes) (result : Except Failure Unit)
  | received (result : Except Failure String)

namespace Dealing

def perform : Dealing → Program Dealt
  | send c message => do return .sent message (← (c.send message).attempt)
  | read c rounds => do return .received (← (c.read rounds).attempt)

def performAll : List Dealing → Program (List Dealt)
  | [] => return []
  | x :: xs => do
    let d ← x.perform
    return d :: (← performAll xs)

end Dealing

/-- What goes through the FIFO for it. Only a message that is sent goes in, and a text that is
received is what a single read took out. -/
inductive Dealt.Leaves : Dealt → List Transfer → Prop
  | sent {m : Bytes} : 0 < m.length → m.length < 512 → Leaves (.sent m (.ok ())) [.put m]
  | refused {m : Bytes} : m.length = 0 ∨ 512 ≤ m.length →
      Leaves (.sent m (.error (.invalidMessage m.length 512))) []
  | failed {m : Bytes} {f : Failure} : 0 < m.length → m.length < 512 →
      (∀ length max, f ≠ .invalidMessage length max) → Leaves (.sent m (.error f)) []
  | received {queued : Bytes} : queued ≠ [] →
      Leaves (.received (.ok (Text.decodeLossy (queued.take 511)))) [.took queued 511]
  | ended : Leaves (.received (.ok "")) []
  | unread {f : Failure} : Leaves (.received (.error f)) []

def Dealt.delivered? : Dealt → Option Bytes
  | sent m (.ok ()) => some m
  | _ => none

theorem Dealt.Leaves.given {d : Dealt} {ts : List Transfer} (h : d.Leaves ts) :
    ts.filterMap Transfer.given? = d.delivered?.toList := by
  cases h <;> rfl

inductive Books : List Dealt → List Transfer → Prop
  | nil : Books [] []
  | cons {d ds ts us} : d.Leaves ts → Books ds us → Books (d :: ds) (ts ++ us)

theorem Books.given {ds : List Dealt} {ts : List Transfer} (h : Books ds ts) :
    ts.filterMap Transfer.given? = ds.filterMap Dealt.delivered? := by
  induction h with
  | nil => rfl
  | @cons d ds ts us hd _ ih =>
    rw [List.filterMap_append, hd.given, ih, List.filterMap_cons]
    cases d.delivered? <;> rfl

/-- A connection only writes valid messages and reads what fits into the buffer for one. -/
def Call.Transfers : Call → Prop
  | .write _ data => 0 < data.length ∧ data.length < 512
  | .read _ count => count = 511
  | .pause _ => True
  | _ => False

namespace Channel

variable {ι : Type} {i j : ι} {s t : Channel ι}

def threads (ι : Type) : Threads ι (Channel ι) := ⟨answers, fun _ _ => False⟩

abbrev shared (i : ι) : World (Channel ι) := (threads ι).world (fun _ _ c => c.Transfers) i

theorem answers_cases {c : Call} {a : c.Answer} (hc : c.Transfers) (ha : answers i s c a t) :
    t = s ∨ (∃ data, t = s.put i data) ∨ (s.queue ≠ [] ∧ t = s.take i 511) := by
  cases c with
  | write fd data =>
    obtain ⟨-, -, ha⟩ := ha
    cases ha with
    | kept => exact .inr (.inl ⟨data, rfl⟩)
    | _ => exact .inl rfl
  | read fd count =>
    obtain rfl : count = 511 := hc
    obtain ⟨-, ha⟩ := ha
    cases ha with
    | data _ hqueue => exact .inr (.inr ⟨hqueue, rfl⟩)
    | _ => exact .inl rfl
  | pause ms => exact .inl ha
  | _ => exact hc.elim

variable [DecidableEq ι]

theorem others_doneBy (h : (shared i).Others s t) : t.doneBy i = s.doneBy i := by
  refine h.keeps (P := fun t => t.doneBy i = s.doneBy i) (fun t u hm ht => ?_) rfl
  obtain hm | ⟨j, hj, c, a, hc, ha⟩ := hm
  · exact hm.elim
  · obtain rfl | ⟨data, rfl⟩ | ⟨-, rfl⟩ := answers_cases hc ha
    · exact ht
    · rw [doneBy_put_of_ne _ hj, ht]
    · rw [doneBy_take_of_ne _ hj, ht]

def adding {α : Type} (i : ι) (s : Channel ι) (R : α → List Transfer → Prop) :
    Contract (Channel ι) α where
  calls _ c := c.Transfers
  returns a t := ∃ ts, R a ts ∧ t.doneBy i = s.doneBy i ++ ts
  breaks _ _ := False
  givesUp _ := True

theorem adding_done {α : Type} {R : α → List Transfer → Prop} {a : α} {ts : List Transfer}
    (ha : R a ts) (hs : t.doneBy i = s.doneBy i ++ ts) :
    (shared i).Meets (adding i s R) (.done a) t :=
  fun _ hu => ⟨ts, ha, (others_doneBy hu).trans hs⟩

theorem send_meets (c : FifoConnection) (m : Bytes) (s : Channel ι) :
    (shared i).Meets (adding i s fun r => (Dealt.sent m r).Leaves) (c.send m).run s := by
  have hnone : s.doneBy i = s.doneBy i ++ [] := (List.append_nil _).symm
  rw [FifoConnection.send_run]
  split
  · rename_i hlength
    exact adding_done (.refused hlength) hnone
  · rename_i hlength
    have hlength : 0 < m.length ∧ m.length < 512 := by omega
    split
    · exact adding_done (.failed hlength.1 hlength.2 nofun) hnone
    · exact adding_done (.failed hlength.1 hlength.2 nofun) hnone
    · intro t ht
      have hnone : t.doneBy i = s.doneBy i ++ [] := (others_doneBy ht).trans hnone
      refine ⟨hlength, fun a u ha => ?_⟩
      obtain ⟨-, -, ha⟩ := ha
      cases ha with
      | kept => exact adding_done (.sent hlength.1 hlength.2) (by simp [others_doneBy ht])
      | _ => exact adding_done (.failed hlength.1 hlength.2 nofun) hnone

theorem readMessageFrom_meets (d : Descriptor) (acceptEnd : Bool) (rounds : Nat)
    (s : Channel ι) :
    (shared i).Meets (adding i s fun r => (Dealt.received r).Leaves)
      (FifoConnection.readMessageFrom d acceptEnd rounds).run s := by
  obtain ⟨fd, name⟩ := d
  -- The others go on while this one waits, but what it has done itself stays as it is.
  suffices ∀ t : Channel ι, t.doneBy i = s.doneBy i →
      (shared i).Meets (adding i s fun r => (Dealt.received r).Leaves)
        (FifoConnection.readMessageFrom ⟨fd, name⟩ acceptEnd rounds).run t from this s rfl
  induction rounds with
  | zero => exact fun _ _ _ _ => trivial
  | succ rounds ih =>
    intro t ht
    rw [FifoConnection.readMessageFrom_run]
    cases fd with
    | none => exact adding_done .unread (by simp [ht])
    | some n =>
      intro u hu
      have hu : u.doneBy i = s.doneBy i := (others_doneBy hu).trans ht
      refine ⟨rfl, fun a v ha => ?_⟩
      obtain ⟨-, ha⟩ := ha
      cases ha with
      | data _ hqueue =>
        have hreceived : (Dealt.received _).Leaves _ := .received hqueue
        cases htake : u.queue.take 511 with
        | nil =>
          have hne : u.queue.take 511 ≠ [] := by simp [hqueue]
          exact absurd htake hne
        | cons b bs =>
          rw [htake] at hreceived
          exact adding_done hreceived (by simp [hu])
      | ended =>
        cases acceptEnd with
        | true => exact adding_done .ended (by simp [hu])
        | false =>
          intro v hv
          refine ⟨trivial, fun _ _ ha => ?_⟩
          obtain rfl := ha
          exact ih _ ((others_doneBy hv).trans hu)
      | empty => exact adding_done .unread (by simp [hu])
      | closed => exact adding_done .unread (by simp [hu])

theorem read_meets (c : FifoConnection) (rounds : Nat) (s : Channel ι) :
    (shared i).Meets (adding i s fun r => (Dealt.received r).Leaves) (c.read rounds).run s := by
  obtain ⟨file, descriptor, blocking⟩ := c
  cases descriptor with
  | none => exact adding_done .unread (List.append_nil _).symm
  | some d => exact readMessageFrom_meets d (!blocking) rounds s

theorem perform_meets (x : Dealing) (s : Channel ι) :
    (shared i).Meets (adding i s Dealt.Leaves) x.perform s := by
  cases x with
  | send c m =>
    exact (send_meets c m s).bind fun r t ⟨ts, hr, ht⟩ => adding_done hr ht
  | read c rounds =>
    exact (read_meets c rounds s).bind fun r t ⟨ts, hr, ht⟩ => adding_done hr ht

theorem performAll_meets (xs : List Dealing) (s : Channel ι) :
    (shared i).Meets (adding i s Books) (Dealing.performAll xs) s := by
  induction xs generalizing s with
  | nil => exact adding_done .nil (List.append_nil _).symm
  | cons x xs ih =>
    refine (perform_meets x s).bind ?_
    rintro d t ⟨ts, hd, ht⟩
    refine (ih t).bind (q := adding i s Books) ?_
    rintro ds u ⟨us, hds, hu⟩
    exact adding_done (.cons hd hds) (by rw [hu, ht, List.append_assoc])

omit [DecidableEq ι]

def accepted (log : List (ι × Transfer)) : Bytes := (log.filterMap (·.2.given?)).flatten

def consumed (log : List (ι × Transfer)) : Bytes := (log.filterMap (·.2.taken?)).flatten

section

variable (log : List (ι × Transfer)) (i : ι)

@[simp] theorem accepted_put (data : Bytes) :
    accepted (log ++ [(i, .put data)]) = accepted log ++ data := by
  simp [accepted, Transfer.given?]

@[simp] theorem consumed_put (data : Bytes) :
    consumed (log ++ [(i, .put data)]) = consumed log := by
  simp [consumed, Transfer.taken?]

@[simp] theorem accepted_took (queued : Bytes) (count : Nat) :
    accepted (log ++ [(i, .took queued count)]) = accepted log := by
  simp [accepted, Transfer.given?]

@[simp] theorem consumed_took (queued : Bytes) (count : Nat) :
    consumed (log ++ [(i, .took queued count)]) = consumed log ++ queued.take count := by
  simp [consumed, Transfer.taken?]

end

structure Balanced (s : Channel ι) : Prop where
  total : consumed s.log ++ s.queue = accepted s.log
  front : ∀ before i queued count later, s.log = before ++ (i, .took queued count) :: later →
    queued ≠ [] ∧ count = 511 ∧ consumed before ++ queued = accepted before

theorem split_snoc {α : Type} {log before later : List α} {x y : α}
    (h : log ++ [x] = before ++ y :: later) :
    (before = log ∧ y = x) ∨ ∃ rest, log = before ++ y :: rest := by
  obtain rfl | ⟨rest, z, rfl⟩ := later.eq_nil_or_concat
  · obtain ⟨rfl, hlast⟩ := List.append_inj' h rfl
    exact .inl ⟨rfl, (List.singleton_inj.mp hlast).symm⟩
  · rw [List.concat_eq_append, ← List.cons_append, ← List.append_assoc] at h
    exact .inr ⟨rest, (List.append_inj' h rfl).1⟩

theorem Balanced.put (h : s.Balanced) (i : ι) (data : Bytes) : (s.put i data).Balanced where
  total := by
    change consumed (s.log ++ _) ++ (s.queue ++ data) = accepted (s.log ++ _)
    rw [consumed_put, accepted_put, ← List.append_assoc, h.total]
  front before j queued count later hlog := by
    obtain ⟨-, hentry⟩ | ⟨rest, hrest⟩ := split_snoc hlog
    · cases hentry
    · exact h.front before j queued count rest hrest

theorem Balanced.take (h : s.Balanced) (i : ι) (hqueue : s.queue ≠ []) :
    (s.take i 511).Balanced where
  total := by
    change consumed (s.log ++ _) ++ s.queue.drop 511 = accepted (s.log ++ _)
    rw [consumed_took, accepted_took, List.append_assoc, List.take_append_drop, h.total]
  front before j queued count later hlog := by
    obtain ⟨rfl, hentry⟩ | ⟨rest, hrest⟩ := split_snoc hlog
    · cases hentry
      exact ⟨hqueue, rfl, h.total⟩
    · exact h.front before j queued count rest hrest

structure Relay where
  sender : FifoConnection
  receiver : FifoConnection
  rounds : Nat
  text : String

namespace Relay

def dealings (x : Relay) : List Dealing :=
  [.send x.sender (Bytes.ofString x.text), .read x.receiver (x.rounds + 1)]

def dealt (x : Relay) : List Dealt :=
  [.sent (Bytes.ofString x.text) (.ok ()), .received (.ok x.text)]

structure Fits (x : Relay) (s : Channel ι) : Prop where
  sends : ∃ fd name, x.sender.descriptor = some ⟨some fd, name⟩ ∧ s.Writes fd
  receives : ∃ fd name, x.receiver.descriptor = some ⟨some fd, name⟩ ∧ s.Reads fd
  length : 1 ≤ (Bytes.ofString x.text).length ∧ (Bytes.ofString x.text).length ≤ 511

end Relay

theorem relay_meets {β : Type} {q : Contract (Channel ι) β} {x : Relay}
    {f : Except Failure Unit → Except Failure String → Program β} (hqueue : s.queue = [])
    (hx : x.Fits s) (hcalls : ∀ t c, (World.alone (answers i)).CanGoOn t c → q.calls t c)
    (hf : ∀ t : Channel ι, t.queue = [] → (∀ y : Relay, y.Fits s → y.Fits t) →
      (World.alone (answers i)).Meets q (f (.ok ()) (.ok x.text)) t) :
    (World.alone (answers i)).Meets q
      ((x.sender.send (Bytes.ofString x.text)).run.bind fun sent =>
        (x.receiver.read (x.rounds + 1)).run.bind fun received => f sent received) s := by
  obtain ⟨fd, name, hsender, hwrites⟩ := hx.sends
  obtain ⟨fd', name', hreceiver, hreads⟩ := hx.receives
  have hlength : 0 < (Bytes.ofString x.text).length ∧ (Bytes.ofString x.text).length < 512 :=
    ⟨hx.length.1, Nat.lt_succ_of_le hx.length.2⟩
  have hsent : (s.put i (Bytes.ofString x.text)).queue = Bytes.ofString x.text := by
    rw [put, hqueue, List.nil_append]
  have hne : (s.put i (Bytes.ofString x.text)).queue ≠ [] := by
    rw [hsent]
    exact List.ne_nil_of_length_pos hlength.1
  refine alone_send hsender hqueue hwrites ⟨fd', hreads⟩ hlength
    (hcalls _ _ (send_answered hwrites ⟨fd', hreads⟩ hlength)) ?_
  refine alone_read hreceiver hreads hne (hcalls _ _ (read_answered hreads hne)) ?_
  rw [hsent, List.take_of_length_le hx.length.2, Text.decodeLossy_ofString]
  exact hf _ (by rw [take, hsent, List.drop_of_length_le hx.length.2]) fun y hy =>
    ⟨hy.sends, hy.receives, hy.length⟩

theorem relays_yield (i : ι) (xs : List Relay) (hqueue : s.queue = [])
    (hfits : ∀ x ∈ xs, x.Fits s) :
    (World.alone (answers i)).Yields (Dealing.performAll (xs.flatMap Relay.dealings)) s
      (xs.flatMap Relay.dealt) := by
  refine settling_yields ?_
  induction xs generalizing s with
  | nil => exact settling_done i _ s
  | cons x xs ih =>
    simp only [List.flatMap_cons, Relay.dealings, List.cons_append, List.nil_append,
      Dealing.performAll, Dealing.perform, Program.bind_eq, Program.pure_eq, Program.bind_assoc,
      Program.done_bind]
    refine relay_meets hqueue (hfits x List.mem_cons_self) (fun _ _ h => h) fun t ht hkept => ?_
    refine World.Meets.bind (ih ht fun y hy => hkept y (hfits y (List.mem_cons_of_mem x hy))) ?_
    rintro ds u rfl
    exact settling_done i _ u

theorem balanced_of_empty (hqueue : s.queue = []) (hlog : s.log = []) : s.Balanced where
  total := by rw [hqueue, hlog]; rfl
  front before i queued count later h := by simp [hlog] at h

theorem Balanced.step {c : Call} {a : c.Answer} (h : s.Balanced) (hc : c.Transfers)
    (ha : answers i s c a t) : t.Balanced := by
  obtain rfl | ⟨data, rfl⟩ | ⟨hqueue, rfl⟩ := answers_cases hc ha
  · exact h
  · exact h.put i data
  · exact h.take i hqueue

theorem Balanced.next (h : s.Balanced) {before later : List (ι × Transfer)} {m queued : Bytes}
    {count : Nat} (hlog : s.log = before ++ (i, .put m) :: (j, .took queued count) :: later)
    (hbefore : consumed before = accepted before) (hlength : m.length ≤ 511) :
    queued.take count = m := by
  obtain ⟨-, rfl, hfront⟩ := h.front (before ++ [(i, .put m)]) j queued count later (by simp [hlog])
  rw [consumed_put, accepted_put, hbefore] at hfront
  rw [List.append_cancel_left hfront, List.take_of_length_le hlength]

/-- Threads send and read over connections on a FIFO that begins empty. At any time, what was read
and what is queued is what was accepted, in one order; each read took the front, up to the size of
its buffer. A thread at its end was told the truth: a message was accepted if sending it was a
success and not otherwise, and a text is what one read took. When each message is read before the
next is sent, texts of one to 511 bytes come back as they were sent. -/
theorem threads_conserve [DecidableEq ι] (jobs : ι → List Dealing) (s t : Channel ι)
    (ps : ι → Program (List Dealt)) (hqueue : s.queue = []) (hlog : s.log = [])
    (hreach : (threads ι).Reaches (fun i => Dealing.performAll (jobs i), s) (ps, t)) :
    t.Balanced ∧
    (∀ i ds, ps i = .done ds → Books ds (t.doneBy i) ∧
      (t.doneBy i).filterMap Transfer.given? = ds.filterMap Dealt.delivered?) ∧
    (∀ before i m j queued count later,
      t.log = before ++ (i, .put m) :: (j, .took queued count) :: later →
      consumed before = accepted before → m.length ≤ 511 → queued.take count = m) ∧
    ∀ i (xs : List Relay), (∀ x ∈ xs, x.Fits s) →
      (World.alone (answers i)).Yields (Dealing.performAll (xs.flatMap Relay.dealings)) s
        (xs.flatMap Relay.dealt) := by
  have hmeet : (threads ι).Meet (fun i => adding i s Books)
      (fun i => Dealing.performAll (jobs i), s) :=
    fun i => performAll_meets (jobs i) s
  have hbalanced : t.Balanced :=
    hmeet.keeps (I := Balanced) (fun _ _ h => h.elim) (fun _ _ _ _ _ hc ha hs => hs.step hc ha)
      hreach (balanced_of_empty hqueue hlog)
  refine ⟨hbalanced, fun i ds hds => ?_,
    fun before i m j queued count later h => hbalanced.next h,
    fun i xs => relays_yield i xs hqueue⟩
  obtain ⟨ts, hbooks, hts⟩ := (hmeet.reaches hreach).thread hds t (World.Others.refl _ t)
  have hdone : t.doneBy i = ts := by rw [hts, doneBy, hlog]; rfl
  rw [hdone]
  exact ⟨hbooks, hbooks.given⟩

/-- One thread sends a letter and another one receives it. -/
theorem threads_conserve_of_letter :
    ∃ (t : Channel Bool) (ps : Bool → Program (List Dealt)),
      (threads Bool).Reaches (fun i => Dealing.performAll
        [if i then .send .single [97] else .read .single 1], single Bool) (ps, t) ∧
      ps false = .done [.received (.ok "a")] ∧ t.Balanced ∧ t.queue = [] ∧
      (World.alone (answers true)).Yields
        (Dealing.performAll [.send .single (Bytes.ofString "b"), .read .single 1]) (single Bool)
        [.sent (Bytes.ofString "b") (.ok ()), .received (.ok "b")] := by
  have hreads := single_reads Bool
  have hwrites := single_writes Bool
  have hsend : (World.alone (answers true)).Reaches
      (Dealing.performAll [.send .single [97]], single Bool)
      (.done [.sent [97] (.ok ())], (single Bool).put true [97]) :=
    .call (.ok 1) ⟨by decide, by decide, .kept hwrites ⟨3, hreads⟩⟩ .refl
  have hread : (World.alone (answers false)).Reaches
      (Dealing.performAll [.read .single 1], (single Bool).put true [97])
      (.done [.received (.ok "a")], ((single Bool).put true [97]).take false 511) := by
    rw [← Text.decodeLossy_ofString "a"]
    exact .call (.ok [97]) ⟨by decide, .data hreads (by decide)⟩ .refl
  let ps (i : Bool) := Dealing.performAll [if i then .send .single [97] else .read .single 1]
  let sent := Function.update ps true (.done [.sent [97] (.ok ())])
  have hreach : (threads Bool).Reaches (ps, single Bool)
      (Function.update sent false (.done [.received (.ok "a")]),
        ((single Bool).put true [97]).take false 511) :=
    (Threads.Reaches.run ps true hsend).trans (Threads.Reaches.run sent false hread)
  obtain ⟨hbalanced, -, -, hrelay⟩ := threads_conserve _ _ _ _ rfl rfl hreach
  refine ⟨_, _, hreach, Function.update_self .., hbalanced, rfl, ?_⟩
  exact hrelay true [⟨.single, .single, 0, "b"⟩] fun x hx => by
    obtain rfl := List.mem_singleton.mp hx
    exact ⟨⟨3, "f", rfl, hwrites⟩, ⟨3, "f", rfl, hreads⟩, by decide, by decide⟩

end Channel

end OwnedHandles
