import OwnedHandles.Proofs.Channel
import OwnedHandles.Proofs.Encoding
import OwnedHandles.Proofs.Endings

namespace OwnedHandles

inductive Posting
  | held (c : FifoConnection) (message : Bytes)
  | opening (c : FifoConnection) (message : Bytes)

namespace Posting

def message : Posting → Bytes
  | held _ m | opening _ m => m

def post : Posting → Action Unit
  | held c m => c.send m
  | opening c m => c.sendMessage m

end Posting

namespace Channel

variable {ι : Type} {i : ι} {s t : Channel ι} {r fd : Fd}

def Keeps (r : Fd) (s t : Channel ι) : Prop := t.ends r = s.ends r

theorem Closed.keeps (h : s.Closed fd t) (hr : (s.ends r).isSome) (hne : fd ≠ r) :
    s.Keeps r t ∧ t.queue = s.queue := by
  cases h with
  | others => exact ⟨Function.update_of_ne hne.symm .., rfl⟩
  | last hlast => simp [hlast r hne.symm] at hr

theorem openFile_meets (file : File) :
    (World.alone (answers i)).Meets (.result fun result t => match result with
        | .ok d => ∃ fd, d.fd = some fd ∧ s.ends fd = none ∧
            t = s.withEnd fd (.ofFlags OpenFlags.writeOnly)
        | .error _ => t = s)
      (Descriptor.openFile file OpenFlags.writeOnly 0#12).run s := by
  unfold Descriptor.openFile
  rw [World.meets_ask_bind]
  intro t ht
  obtain rfl := (World.others_alone _).mp ht
  refine ⟨trivial, fun existed u hu => ?_⟩
  obtain rfl := hu
  rw [World.meets_ask_bind]
  intro t ht
  obtain rfl := (World.others_alone _).mp ht
  refine ⟨trivial, fun a u ha => ?_⟩
  cases ha with
  | refused e => exact World.alone_done rfl
  | @fresh fd hnone =>
    have hcreate : OpenFlags.writeOnly.has .create = false := by decide
    simp only [hcreate, Bool.and_false]
    exact World.alone_done ⟨fd, rfl, hnone, rfl⟩

/-- The reader is there as it was, and if the message was sent then it is queued behind the rest. -/
def Queues (r : Fd) (m : Bytes) (s : Channel ι) (result : Except Failure Unit) (t : Channel ι) :
    Prop :=
  s.Keeps r t ∧ (result = .ok () → (0 < m.length ∧ m.length < 512) ∧ t.queue = s.queue ++ m)

theorem send_queues (c : FifoConnection) (m : Bytes) :
    (World.alone (answers i)).Meets (.result (s.Queues r m)) (c.send m).run s := by
  rw [FifoConnection.send_run]
  split
  · exact World.alone_done ⟨rfl, nofun⟩
  · rename_i hlength
    split
    · exact World.alone_done ⟨rfl, nofun⟩
    · exact World.alone_done ⟨rfl, nofun⟩
    · refine World.alone_call trivial fun a t ha => ?_
      obtain ⟨-, -, ha⟩ := ha
      cases ha with
      | kept => exact World.alone_done ⟨rfl, fun _ => ⟨by omega, rfl⟩⟩
      | _ => exact World.alone_done ⟨rfl, nofun⟩

theorem finish_queues {d : Descriptor} {m : Bytes} (hd : d.fd = some fd) (hne : fd ≠ r)
    (hr : (s.ends r).isSome) (hkeeps : s.Keeps r t)
    (hqueue : (0 < m.length ∧ m.length < 512) ∧ t.queue = s.queue ++ m) :
    (World.alone (answers i)).Meets (.result (s.Queues r m)) d.finish.run t := by
  obtain ⟨_, name⟩ := d
  obtain rfl : _ = some fd := hd
  refine World.alone_call trivial fun a u ha => ?_
  obtain ⟨hkeeps', hqueue'⟩ := Closed.keeps ha (by rwa [hkeeps]) hne
  have hqueues : s.Queues r m (.ok ()) u :=
    ⟨hkeeps'.trans hkeeps, fun _ => ⟨hqueue.1, hqueue'.trans hqueue.2⟩⟩
  cases a with
  | ok _ => exact World.alone_done hqueues
  | error e => exact World.alone_done ⟨hqueues.1, nofun⟩

theorem write_queues {d : Descriptor} {m : Bytes} (hd : d.fd = some fd) (hne : fd ≠ r)
    (hr : (s.ends r).isSome) (hkeeps : s.Keeps r t) (hm : 0 < m.length ∧ m.length < 512)
    (hqueue : t.queue = s.queue) :
    (World.alone (answers i)).Meets (.result (s.Queues r m)) (do
      let _ ← (d.write m).onLeave (Descriptor.dropAll [d])
      d.finish : Action Unit).run t := by
  have hfinish := fun u => finish_queues (i := i) (t := u) (m := m) hd hne hr
  obtain ⟨_, name⟩ := d
  obtain rfl : _ = some fd := hd
  refine World.alone_call trivial fun a u ha => ?_
  obtain ⟨-, -, ha⟩ := ha
  cases ha with
  | kept =>
    exact hfinish _ hkeeps ⟨hm, congrArg (· ++ m) hqueue⟩
  | _ =>
    refine World.alone_call trivial fun a u ha => ?_
    have hclosed := (Closed.keeps ha (by rwa [hkeeps]) hne).1.trans hkeeps
    cases a <;> exact World.alone_done ⟨hclosed, nofun⟩

theorem warnUnlessFifo_meets (c : FifoConnection) :
    (World.alone (answers i)).Meets (.result fun result t => result = .ok () ∧ t = s)
      c.warnUnlessFifo.run s := by
  refine World.alone_call trivial fun a t ha => ?_
  obtain rfl := ha
  cases a with
  | none => exact World.alone_done ⟨rfl, rfl⟩
  | some kind => cases kind <;> exact World.alone_done ⟨rfl, rfl⟩

theorem sendMessage_queues (c : FifoConnection) (m : Bytes) (hr : (s.ends r).isSome) :
    (World.alone (answers i)).Meets (.result (s.Queues r m)) (c.sendMessage m).run s := by
  unfold FifoConnection.sendMessage FifoConnection.checkLength Limits.fifoMessage
  refine (World.meets_action_bind ..).mpr ((warnUnlessFifo_meets c).returning ?_)
  rintro _ t ⟨rfl, rfl⟩
  dsimp only
  split
  · exact World.alone_done ⟨rfl, nofun⟩
  · change (World.alone (answers i)).Meets _
      (Descriptor.openFile c.file OpenFlags.writeOnly 0#12 >>= _ : Action Unit).run t
    refine (World.meets_action_bind ..).mpr ?_
    refine (openFile_meets c.file).returning fun result u hu => ?_
    cases result with
    | error e =>
      obtain rfl := hu
      exact World.alone_done ⟨rfl, nofun⟩
    | ok d =>
      obtain ⟨fd, hd, hnone, rfl⟩ := hu
      have hne : fd ≠ r := by
        rintro rfl
        simp [hnone] at hr
      exact write_queues hd hne hr (Function.update_of_ne hne.symm ..) (by omega) rfl

theorem post_queues (x : Posting) (hr : (s.ends r).isSome) :
    (World.alone (answers i)).Meets (.result (s.Queues r x.message)) x.post.run s := by
  cases x with
  | held c m => exact send_queues c m
  | opening c m => exact sendMessage_queues c m hr

inductive Posted (i : ι) : Channel ι → List Posting → Channel ι → Prop
  | nil (s : Channel ι) : Posted i s [] s
  | cons {x xs s t u} : (World.alone (answers i)).Returns x.post.run s (.ok ()) t →
      Posted i t xs u → Posted i s (x :: xs) u

theorem Posted.queue {xs : List Posting} (h : Posted i s xs t) (hr : (s.ends r).isSome) :
    s.Keeps r t ∧ t.queue = s.queue ++ (xs.map Posting.message).flatten ∧
      ∀ m ∈ xs.map Posting.message, 0 < m.length ∧ m.length < 512 := by
  induction h with
  | nil s => exact ⟨rfl, by simp, by simp⟩
  | @cons x xs s t u hx _ ih =>
    obtain ⟨hkeeps, hsent⟩ := (post_queues x hr).returns hx
    obtain ⟨hvalid, hqueue⟩ := hsent rfl
    obtain ⟨hkeeps', hqueue', hvalid'⟩ := ih (by rwa [hkeeps])
    refine ⟨hkeeps'.trans hkeeps, ?_, List.forall_mem_cons.mpr ⟨hvalid, hvalid'⟩⟩
    rw [hqueue', hqueue, List.append_assoc]
    rfl

end Channel

namespace FifoConnection

def readTimes (c : FifoConnection) (rounds : Nat) : Nat → Program (List (Except Failure String))
  | 0 => return []
  | n + 1 => do
    let result ← (c.read rounds).attempt
    return result :: (← c.readTimes rounds n)

end FifoConnection

namespace Channel

variable {ι : Type} {i : ι} {s t : Channel ι} {r : Fd} {c : FifoConnection} {name : String}

theorem flatten_ne_nil {m : Bytes} {ms : List Bytes} (hm : 0 < m.length) :
    (m :: ms).flatten ≠ [] :=
  List.append_ne_nil_of_left_ne_nil (List.ne_nil_of_length_pos hm) _

theorem readTimes_settles (rounds : Nat) (ms : List Bytes)
    (hc : c.descriptor = some ⟨some r, name⟩) (hreads : s.Reads r) (hqueue : s.queue = ms.flatten)
    (hvalid : ∀ m ∈ ms, 0 < m.length ∧ m.length < 512)
    (hfull : ∀ m ∈ ms.dropLast, m.length = 511) :
    (World.alone (answers i)).Meets (settling i (ms.map fun m => .ok (Text.decodeLossy m)))
      (c.readTimes (rounds + 1) ms.length) s := by
  induction ms generalizing s with
  | nil => exact settling_done i _ s
  | cons m ms ih =>
    have hm := hvalid m List.mem_cons_self
    have hne : s.queue ≠ [] := hqueue ▸ flatten_ne_nil hm.1
    have hfront : s.queue.take 511 = m ∧ s.queue.drop 511 = ms.flatten := by
      rw [hqueue, List.flatten_cons]
      cases ms with
      | nil => simp [List.take_of_length_le, List.drop_of_length_le, Nat.le_of_lt_succ hm.2]
      | cons n ms =>
        rw [← hfull m List.mem_cons_self]
        exact ⟨List.take_left, List.drop_left⟩
    refine alone_read hc hreads hne (read_answered hreads hne) ?_
    rw [hfront.1]
    refine World.Meets.bind (ih hreads hfront.2 (fun n hn => hvalid n (List.mem_cons_of_mem m hn))
      fun n hn => hfull n ?_) ?_
    · cases ms with
      | nil => cases hn
      | cons n' ms => exact List.mem_cons_of_mem m hn
    · rintro rs t rfl
      exact settling_done i _ t

/-- A message that does not fill the buffer is read together with what is behind it. -/
theorem decodeLossy_take_ne {m rest : Bytes} (hm : Text.WellFormed m) (hlength : m.length < 511)
    (hrest : rest ≠ []) :
    Text.decodeLossy ((m ++ rest).take 511) ≠ Text.decodeLossy m := by
  rw [List.take_append, List.take_of_length_le (Nat.le_of_lt hlength)]
  refine Text.decodeLossy_append_ne hm ?_
  have hroom : 511 - m.length ≠ 0 := Nat.sub_ne_zero_of_lt hlength
  simp [hroom, hrest]

theorem readTimes_full (rounds : Nat) (ms : List Bytes)
    (hc : c.descriptor = some ⟨some r, name⟩) (hreads : s.Reads r) (hqueue : s.queue = ms.flatten)
    (hvalid : ∀ m ∈ ms, 0 < m.length ∧ m.length < 512) (htext : ∀ m ∈ ms, Text.WellFormed m) :
    (World.alone (answers i)).Meets
      (.result fun results _ => results = ms.map (fun m => .ok (Text.decodeLossy m)) →
        ∀ m ∈ ms.dropLast, m.length = 511)
      (c.readTimes (rounds + 1) ms.length) s := by
  induction ms generalizing s with
  | nil => exact World.alone_done nofun
  | cons m ms ih =>
    cases ms with
    | nil => exact (Program.endsIn_true _).meets.returning nofun
    | cons n ms =>
      have hm := hvalid m List.mem_cons_self
      have hn := hvalid n (List.mem_cons_of_mem m List.mem_cons_self)
      have hne : s.queue ≠ [] := hqueue ▸ flatten_ne_nil hm.1
      refine alone_read hc hreads hne trivial ?_
      -- Only a message that fills the buffer leaves the queue as the induction needs it.
      by_cases hlength : m.length = 511
      · have hrest : (s.take i 511).queue = (n :: ms).flatten := by
          rw [take, hqueue, List.flatten_cons, ← hlength]
          exact List.drop_left
        refine World.Meets.bind (ih hreads hrest (fun x hx => hvalid x (List.mem_cons_of_mem m hx))
          fun x hx => htext x (List.mem_cons_of_mem m hx)) ?_
        intro results t hresults
        refine World.alone_done fun heq => List.forall_mem_cons.mpr ⟨hlength, hresults ?_⟩
        exact (List.cons.inj heq).2
      · refine World.Meets.bind (Program.endsIn_true _).meets fun results t _ => ?_
        refine World.alone_done fun heq => ?_
        have hfirst := Except.ok.inj (List.cons.inj heq).1
        rw [hqueue] at hfirst
        exact absurd hfirst (decodeLossy_take_ne (htext m List.mem_cons_self) (by omega)
          (flatten_ne_nil hn.1))

end Channel

namespace FifoConnection

open Channel

variable {ι : Type}

/-- Messages were sent on an empty FIFO, one after the other and each with success, while the reader
was there. Then as many reads may return them if and only if each of them, except for the last,
has 511 bytes; and if so, the reads return just these messages in every run. -/
theorem reads_return_messages_iff (i : ι) (s t : Channel ι) (xs : List Posting) (c : FifoConnection)
    (r : Fd) (name : String) (rounds : Nat) (hc : c.descriptor = some ⟨some r, name⟩)
    (hreads : s.Reads r) (hqueue : s.queue = [])
    (htext : ∀ m ∈ xs.map Posting.message, Text.WellFormed m) (hposted : Posted i s xs t) :
    ((∃ u, (World.alone (answers i)).Returns (c.readTimes (rounds + 1) xs.length) t
        (xs.map fun x => .ok (Text.decodeLossy x.message)) u) ↔
      ∀ m ∈ (xs.map Posting.message).dropLast, m.length = 511) ∧
    ((∀ m ∈ (xs.map Posting.message).dropLast, m.length = 511) →
      (World.alone (answers i)).Yields (c.readTimes (rounds + 1) xs.length) t
        (xs.map fun x => .ok (Text.decodeLossy x.message))) := by
  obtain ⟨e, hend, he⟩ := hreads
  obtain ⟨hkeeps, hqueue', hvalid⟩ := hposted.queue (r := r) (by rw [hend]; rfl)
  have hreads : t.Reads r := ⟨e, hkeeps.trans hend, he⟩
  rw [hqueue, List.nil_append] at hqueue'
  have hresults : (xs.map fun x => (.ok (Text.decodeLossy x.message) : Except Failure String)) =
      (xs.map Posting.message).map fun m => .ok (Text.decodeLossy m) := by
    rw [List.map_map]
    rfl
  have hcount : xs.length = (xs.map Posting.message).length := (List.length_map _).symm
  rw [hresults, hcount]
  have hyields (hfull : ∀ m ∈ (xs.map Posting.message).dropLast, m.length = 511) :=
    settling_yields (readTimes_settles (i := i) rounds _ hc hreads hqueue' hvalid hfull)
  refine ⟨⟨?_, fun hfull => (hyields hfull).completes _ .refl⟩, hyields⟩
  rintro ⟨u, hu⟩
  exact (readTimes_full rounds _ hc hreads hqueue' hvalid htext).returns hu rfl

theorem send_posts {s : Channel ι} {i : ι} {c : FifoConnection} {fd : Fd} {name : String}
    {m : Bytes}
    (hc : c.descriptor = some ⟨some fd, name⟩) (hwrites : s.Writes fd) (hreader : s.HasReader)
    (hm : 0 < m.length ∧ m.length < 512) :
    (World.alone (answers i)).Returns (Posting.held c m).post.run s (.ok ()) (s.put i m) := by
  have hatomic : m.length ≤ atomic := Nat.le_of_lt (Nat.lt_trans hm.2 (by decide))
  have hanswer : (World.alone (answers i)).answers s (.write fd m) (.ok m.length) (s.put i m) :=
    ⟨List.ne_nil_of_length_pos hm.1, hatomic, .kept hwrites hreader⟩
  unfold Posting.post
  rw [send_run, if_neg (by omega), hc]
  exact .call _ hanswer .refl

/-- A message that fills the buffer of a read, and one of two letters behind it. -/
theorem reads_return_messages_of_two :
    let long := String.ofList (List.replicate 511 'a')
    ∃ t, Posted () (Channel.single Unit)
        [.held single (Bytes.ofString long), .held single (Bytes.ofString "hi")] t ∧
      (World.alone (answers ())).Yields (single.readTimes 1 2) t [.ok long, .ok "hi"] := by
  intro long
  have hlong : (Bytes.ofString long).length = 511 := by decide +kernel
  clear_value long
  have hreads := single_reads Unit
  have hwrites := single_writes Unit
  have hposted : Posted () (Channel.single Unit)
      [.held single (Bytes.ofString long), .held single (Bytes.ofString "hi")] _ :=
    .cons (send_posts rfl hwrites ⟨3, hreads⟩ (by omega))
      (.cons (send_posts rfl hwrites ⟨3, hreads⟩ (by decide)) (.nil _))
  have htext : ∀ m ∈ [Bytes.ofString long, Bytes.ofString "hi"], Text.WellFormed m := by
    rintro m (_ | ⟨_, _ | ⟨_, ⟨⟩⟩⟩)
    · exact ⟨long, rfl⟩
    · exact ⟨"hi", rfl⟩
  have hyields := (reads_return_messages_iff () _ _
    [.held single (Bytes.ofString long), .held single (Bytes.ofString "hi")] single 3 "f" 0 rfl
    hreads rfl htext hposted).2 (by simpa [Posting.message] using hlong)
  simp only [List.map_cons, List.map_nil, Posting.message, Text.decodeLossy_ofString] at hyields
  exact ⟨_, hposted, hyields⟩

/-- Two messages over a connection that does not wait: the first read returns both, and nothing is
left for the second. -/
theorem messages_read_together :
    ∃ t, Posted () (Channel.single Unit)
        [.held single (Bytes.ofString "ab"), .held single (Bytes.ofString "cd")] t ∧
      (World.alone (answers ())).Yields (single.readTimes 1 2) t
        [.ok "abcd", .error (.readFailed "f" .EAGAIN)] := by
  have hreads := single_reads Unit
  have hwrites := single_writes Unit
  refine ⟨((Channel.single Unit).put () (Bytes.ofString "ab")).put () (Bytes.ofString "cd"), ?_, ?_⟩
  · exact .cons (send_posts rfl hwrites ⟨3, hreads⟩ (by decide))
      (.cons (send_posts rfl hwrites ⟨3, hreads⟩ (by decide)) (.nil _))
  · rw [← Text.decodeLossy_ofString "abcd"]
    refine settling_yields ?_
    refine alone_read rfl hreads (by decide) (read_answered hreads (by decide)) ?_
    refine World.alone_call (.inl ⟨_, _, by decide, .empty rfl rfl ⟨3, hwrites⟩⟩) fun a t ha => ?_
    obtain ⟨-, ha⟩ := ha
    cases ha with
    | data _ h => exact absurd rfl h
    | ended _ _ h => exact absurd ⟨3, hwrites⟩ h
    | closed h => exact absurd hreads h
    | @empty e he =>
      obtain rfl : _ = e := Option.some.inj he
      exact settling_done _ _ _

end FifoConnection

end OwnedHandles
