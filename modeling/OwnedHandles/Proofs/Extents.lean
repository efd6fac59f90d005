import OwnedHandles.Proofs.MapAttempts
import OwnedHandles.Proofs.Offspring

namespace OwnedHandles

structure Intake where
  taken : Nat
  interruptions : Nat

def Call.takenIn (s : Intake) : (c : Call) → c.Answer → Intake → Prop
  | .write _ data, .ok n, t => n ≤ data.length ∧ t = { s with taken := s.taken + n }
  | .write .., .error e, t => t.taken = s.taken ∧ t.interruptions ≤ s.interruptions ∧
      (e = .EINTR → t.interruptions < s.interruptions)
  | _, _, t => t = s

def World.taking : World Intake := .alone Call.takenIn

def Contract.completing {σ α : Type} (w : World σ) (P : α → σ → Prop) :
    Contract σ (Except Failure α) :=
  ⟨w.CanGoOn, fun r t => ∀ a, r = .ok a → P a t, fun _ _ => False, fun _ => False⟩

namespace Contract.completing

variable {σ α β : Type} {answers : σ → (c : Call) → c.Answer → σ → Prop} {s : σ}
  {P : α → σ → Prop} {Q : β → σ → Prop}

theorem failed {w : World σ} (e : Failure) :
    w.Meets (completing w P) (.done (.error e)) s := fun _ _ => nofun

theorem bind {w : World σ} {p : Action α} {f : α → Action β}
    (hp : w.Meets (completing w P) p.run s)
    (hf : ∀ a t, P a t → w.Meets (completing w Q) (f a).run t) :
    w.Meets (completing w Q) (p >>= f).run s := by
  refine (World.meets_action_bind _ _ _).mpr (hp.returning fun r t ht => ?_)
  cases r with
  | ok a => exact hf a t (ht a rfl)
  | error e => exact failed e

theorem onLeave {C : Call → Prop} {p : Action α} {fin : Program Unit}
    (hp : (World.alone answers).Meets (completing (.alone answers) P) p.run s)
    (hmakes : fin.Makes C) (hends : fin.Finishes)
    (hC : ∀ t c, C c → (World.alone answers).CanGoOn t c) :
    (World.alone answers).Meets (completing (.alone answers) P) (p.onLeave fin).run s := by
  refine (World.meets_leaving _ _ _ _).mpr (hp.weaken (fun _ _ h => h) (fun r t ht => ?_)
    (fun _ _ h => h.elim) fun _ h => h)
  cases r with
  | ok a => exact World.alone_done ht
  | error e =>
    exact (World.meets_bind _ _ _).mpr (hmakes.meets_finishing (I := fun _ => True) hends
      (fun _ _ _ h => h) (fun _ _ _ _ _ _ h => h) (fun t c _ => hC t c) (fun _ _ _ => failed e)
      trivial)

theorem attains {p : Program (Except Failure α)}
    (h : (World.alone answers).Meets (completing (.alone answers) P) p s) :
    (World.alone answers).Attains p s fun r t => ∀ a, r = .ok a → P a t :=
  h.attains ⟨fun _ => ⟨_, fun _ h => h.elim⟩⟩ (fun _ _ h => h) (fun _ _ h => h) (fun _ _ => id)
    fun _ => id

end Contract.completing

def Call.TakesNothing : Call → Prop
  | .probe _ | .openFile .. | .changeMode .. | .close _ | .mapMemory .. => True
  | _ => False

namespace Call.TakesNothing

variable {c : Call} {s t : Intake}

theorem frame (hc : c.TakesNothing) {a : c.Answer} (h : World.taking.answers s c a t) : t = s := by
  cases c with
  | probe | openFile | changeMode | close | mapMemory => exact h
  | _ => exact hc.elim

theorem canGoOn (hc : c.TakesNothing) : World.taking.CanGoOn s c := by
  cases c with
  | probe => exact .inl ⟨none, s, rfl⟩
  | openFile | changeMode | close | mapMemory => exact .inl ⟨.error .EIO, s, rfl⟩
  | _ => exact hc.elim

theorem completing {α : Type} {P : α → Prop} {F : Failure → Prop} {p : Action α}
    (hp : p.run.Makes Call.TakesNothing) (hfinishes : p.run.Finishes) (hends : p.EndsIn P F) :
    World.taking.Meets (.completing .taking fun a t => P a ∧ t = s) p.run s := by
  have hsame : World.taking.Meets (.completing .taking fun _ t => t = s) p.run s :=
    hp.meets_finishing (I := (· = s)) hfinishes (fun _ _ h => h.elim)
      (fun _ _ _ _ hc ha ht => (hc.frame ha).trans ht) (fun _ _ _ hc => hc.canGoOn)
      (fun _ _ ht _ _ => ht) rfl
  refine (hends.refine hsame).returning ?_
  rintro _ t ⟨hP, ht⟩ a rfl
  exact ⟨hP, ht a rfl⟩

end Call.TakesNothing

open Contract (completing)

section Zeroing

variable {s : Intake}

theorem Descriptor.write_taking (name : String) (fd : Fd) (data : Bytes) :
    World.taking.Meets ⟨World.taking.CanGoOn, fun r t => match r with
        | .ok n => n ≤ data.length ∧ t = { s with taken := s.taken + n }
        | .error f => t.taken = s.taken ∧ t.interruptions ≤ s.interruptions ∧
            ∀ name, f = .writeFailed name .EINTR → t.interruptions < s.interruptions,
        fun _ _ => False, fun _ => False⟩
      ((owning fd name).write data).run s := by
  refine World.alone_call (.inl ⟨.ok 0, _, Nat.zero_le _, rfl⟩) fun a t ht => ?_
  cases a with
  | ok n => exact World.alone_done ht
  | error e =>
    refine World.alone_done ⟨ht.1, ht.2.1, fun name' hname => ?_⟩
    exact ht.2.2 (Failure.writeFailed.inj hname).2

theorem Descriptor.writeAll_taking (name : String) (fd : Fd) (rounds : Nat) (data : Bytes)
    (hrounds : data.length + s.interruptions ≤ rounds) :
    World.taking.Meets (completing .taking fun _ t => t.interruptions ≤ s.interruptions ∧
        t.taken = s.taken + data.length)
      ((owning fd name).writeAll rounds data).run s := by
  induction rounds generalizing s data with
  | zero =>
    obtain rfl : data = [] := List.eq_nil_of_length_eq_zero (by omega)
    exact World.alone_done fun _ _ => ⟨Nat.le_refl _, rfl⟩
  | succ rounds ih =>
    cases data with
    | nil => exact World.alone_done fun _ _ => ⟨Nat.le_refl _, rfl⟩
    | cons b bs =>
      rw [List.length_cons] at hrounds
      refine World.Meets.lift_bind (write_taking name fd (b :: bs)) fun r t ht => ?_
      split
      · exact completing.failed _
      · rename_i n
        obtain ⟨hn, rfl⟩ := ht
        rw [List.length_cons] at hn
        refine (ih (bs.drop n) (by simp; omega)).returning fun r u hu a ha => ?_
        obtain ⟨hle, htaken⟩ := hu a ha
        refine ⟨hle, ?_⟩
        simp at htaken ⊢
        omega
      · obtain ⟨htaken, hle, hlt⟩ := ht
        have hless := hlt _ rfl
        refine (ih (b :: bs) (by simp; omega)).returning fun r u hu a ha => ?_
        exact ⟨(hu a ha).1.trans hle, htaken ▸ (hu a ha).2⟩
      · exact completing.failed _

namespace MappedFile

theorem writePages_taking (name : String) (fd : Fd) (rounds pages : Nat)
    (hrounds : Limits.pageSize + s.interruptions ≤ rounds) :
    World.taking.Meets (completing .taking fun _ t =>
        t.taken = s.taken + pages * Limits.pageSize)
      (writePages (.owning fd name) rounds pages).run s := by
  induction pages generalizing s with
  | zero => exact World.alone_done fun _ _ => by simp
  | succ pages ih =>
    have hpage : zeroPage.length = Limits.pageSize := List.length_replicate
    refine completing.bind (Descriptor.writeAll_taking name fd rounds zeroPage (by rwa [hpage]))
      fun _ t ht => ?_
    refine (ih (by omega)).returning fun r u hu a ha => ?_
    calc u.taken = t.taken + pages * Limits.pageSize := hu a ha
      _ = s.taken + Limits.pageSize + pages * Limits.pageSize := by rw [ht.2, hpage]
      _ = s.taken + (pages + 1) * Limits.pageSize := by rw [Nat.succ_mul]; omega

variable {m : MappedFile} {rounds : Nat}

theorem zero_taking (hwritable : m.writable = true)
    (hextent : (m.size + m.offset) % Limits.pageSize = 0) (hfits : m.size + m.offset < wordLimit)
    (hrounds : Limits.pageSize + s.interruptions ≤ rounds) :
    World.taking.Meets (completing .taking fun _ t => t.taken = s.taken + (m.size + m.offset))
      (m.zero rounds).run s := by
  unfold zero
  simp only [hwritable]
  refine completing.bind (Call.TakesNothing.completing (Descriptor.openFile_makes trivial trivial
    (fun _ => trivial) fun _ => trivial) (Descriptor.openFile_finishes _ _ _)
    (Descriptor.openFile_gives _ _ _)) ?_
  rintro _ t ⟨⟨fd, rfl⟩, rfl⟩
  refine completing.bind (P := fun _ u => u.taken = t.taken + (m.size + m.offset))
    (completing.onLeave ?_ (Descriptor.dropAll_makes (P := Call.TakesNothing) (fun _ => trivial) _)
      (Descriptor.dropAll_finishes _) fun _ _ hc => hc.canGoOn) ?_
  · have hpages : (m.size + m.offset) / Limits.pageSize * Limits.pageSize = m.size + m.offset :=
      Nat.div_mul_cancel (Nat.dvd_of_mod_eq_zero hextent)
    unfold fill
    rw [if_neg (Nat.not_le.mpr hfits)]
    refine (writePages_taking m.file.name fd rounds _ hrounds).returning fun _ u hu a ha => ?_
    exact hpages ▸ hu a ha
  · intro _ u hu
    refine World.alone_call (Call.TakesNothing.canGoOn (c := .close fd) trivial) fun a v hv => ?_
    obtain rfl := hv
    cases a with
    | ok _ => exact World.alone_done fun _ _ => hu
    | error e => exact completing.failed _

theorem zero_endsIn_opening (hover : wordLimit ≤ m.size + m.offset) :
    (m.zero rounds).EndsIn (fun _ => False) (Failure.OfOpening m.file.name) := by
  have hbreaks (d : Descriptor) :
      ((m.fill d rounds).onLeave (Descriptor.dropAll [d])).EndsIn (fun _ => False)
        (Failure.OfOpening m.file.name) := by
    unfold fill
    rw [if_pos hover]
    exact Action.EndsIn.onLeave trivial
  unfold zero
  cases m.writable with
  | false => trivial
  | true =>
    exact (Descriptor.openFile_gives _ _ _).andThen fun d => (hbreaks d).bind fun _ h => h.elim

theorem zero_takesNothing (hover : wordLimit ≤ m.size + m.offset) :
    (m.zero rounds).run.Makes Call.TakesNothing := by
  have hbreaks (d : Descriptor) :
      ((m.fill d rounds).onLeave (Descriptor.dropAll [d])).run.Makes Call.TakesNothing := by
    unfold fill
    rw [if_pos hover]
    exact Program.Makes.leaving trivial (Descriptor.dropAll_makes (fun _ => trivial) _)
  unfold zero
  cases m.writable with
  | false => trivial
  | true =>
    refine Action.makes_bind (Descriptor.openFile_makes trivial trivial (fun _ => trivial)
      fun _ => trivial) fun d => Action.makes_bind (hbreaks d) fun _ => ?_
    exact Action.makes_bind (Action.makes_lift (d.close_makes (fun _ => trivial)))
      fun r => Action.makes_ofExcept r.1

theorem exists_overflow (s : Intake) (hwritable : m.writable = true)
    (hover : wordLimit ≤ m.size + m.offset) :
    World.taking.Breaks (m.zero rounds).run s "attempt to add with overflow" s := by
  unfold zero fill
  simp only [hwritable, if_pos hover]
  exact World.Reaches.call (some .regular) rfl (World.Reaches.call (.ok 3) rfl
    (.head .note (.head .note (World.Reaches.call (.ok ()) rfl (.head .note .refl)))))

end MappedFile

end Zeroing

namespace MappedFile

variable {m : MappedFile} {s : Intake} {rounds : Nat}

theorem map_eq (hm : m.mapped = false) :
    m.map = (Descriptor.openFile m.file m.flags m.permissions).run.bind fun r => match r with
      | .error f => .done (.error f, m)
      | .ok d => (Descriptor.dropAll m.descriptor.toList).bind fun _ =>
          { m with descriptor := some d }.mapMemory := by
  unfold map openBacking
  simp only [hm, Bool.false_eq_true, if_false, Program.bind_eq, Program.bind_assoc,
    Action.attempt_eq]
  congr 1
  funext r
  cases r with
  | error f => rfl
  | ok d => exact Program.bind_assoc _ _ _

theorem mapMemory_makes {P : Call → Prop}
    (hmap : ∀ fd, P (.mapMemory m.size m.readable m.writable fd m.offset)) :
    m.mapMemory.Makes P := by
  unfold mapMemory
  cases m.descriptor.bind Descriptor.fd with
  | none => trivial
  | some fd =>
    change Program.Makes P (if _ then _ else _)
    split
    · trivial
    · refine ⟨hmap fd, fun a => ?_⟩
      cases a <;> trivial

theorem mapMemory_finishes (m : MappedFile) : m.mapMemory.Finishes := by
  unfold mapMemory
  cases m.descriptor.bind Descriptor.fd with
  | none => trivial
  | some fd =>
    change Program.Finishes (if _ then _ else _)
    split
    · trivial
    · intro a
      cases a <;> trivial

theorem map_makes {P : Call → Prop} (hm : m.mapped = false)
    (hcalls : ∀ c : Call, c.TakesNothing → (∀ size readable writable fd offset,
      c = .mapMemory size readable writable fd offset → size = m.size ∧ offset = m.offset) → P c) :
    m.map.Makes P := by
  have hopens : (Descriptor.openFile m.file m.flags m.permissions).run.Makes P :=
    Descriptor.openFile_makes (hcalls _ trivial nofun) (hcalls _ trivial nofun)
      (fun _ => hcalls _ trivial nofun) fun _ => hcalls _ trivial nofun
  rw [map_eq hm]
  refine hopens.bind fun r => ?_
  cases r with
  | error f => trivial
  | ok d =>
    refine (Descriptor.dropAll_makes (fun _ => hcalls _ trivial nofun) _).bind fun _ =>
      mapMemory_makes fun fd => hcalls _ trivial ?_
    rintro _ _ _ _ _ ⟨⟩
    exact ⟨rfl, rfl⟩

theorem map_finishes (hm : m.mapped = false) : m.map.Finishes := by
  rw [map_eq hm]
  refine (Descriptor.openFile_finishes _ _ _).bind fun r => ?_
  cases r with
  | error f => trivial
  | ok d => exact (Descriptor.dropAll_finishes _).bind fun _ => mapMemory_finishes _

def signed (word : Nat) : Int := (BitVec.ofNat 64 word).toInt

theorem signed_eq_iff (word : Nat) : signed word = word ↔ word < 2 ^ 63 := by
  rw [signed, BitVec.toInt_eq_toNat_cond, BitVec.toNat_ofNat]
  split <;> omega

/-- Zeroing overflows exactly where the end of the range is no word, as soon as the file is open,
and a range of which that is not so is written in full. Mapping never overflows, but an offset with
the top bit set stands for another one to whom it is given. -/
theorem extent_fits {file : File} {size offset : Nat} {readable : Bool} {permissions : Mode}
    (hnew : describe file size offset readable true permissions = .ok m)
    (hrounds : Limits.pageSize + s.interruptions ≤ rounds) :
    (size + offset < wordLimit → World.taking.Attains (m.zero rounds).run s fun r t =>
      r = .ok () → t.taken = s.taken + (size + offset)) ∧
    (wordLimit ≤ size + offset →
      World.taking.Breaks (m.zero rounds).run s "attempt to add with overflow" s ∧
      ∀ r t, World.taking.Returns (m.zero rounds).run s r t →
        t = s ∧ ∃ f, r = .error f ∧ f.OfOpening file.name) ∧
    World.taking.Attains m.map s (fun _ t => t = s) ∧
    ∀ n readable writable fd o next t,
      World.taking.Reaches (m.map, s) (.call (.mapMemory n readable writable fd o) next, t) →
        n = size ∧ o = offset ∧ (signed o = offset ↔ offset < 2 ^ 63) := by
  obtain ⟨-, hsize, hoffset, rfl⟩ := describe_ok_iff.mp hnew
  set m : MappedFile := { file, size, offset, readable, writable := true, permissions }
  have hextent : (size + offset) % Limits.pageSize = 0 := by simp [Nat.add_mod, hsize, hoffset]
  refine ⟨fun hfits => ?_, fun hover => ⟨exists_overflow s rfl hover, fun r t h => ?_⟩, ?_, ?_⟩
  · have hattains := completing.attains (zero_taking (m := m) rfl hextent hfits hrounds)
    exact { hattains with only := fun r t h hr => hattains.only r t h () hr }
  · have hsame : World.taking.Meets (.result fun _ u => u = s) (m.zero rounds).run s :=
      (zero_takesNothing hover).meets_keeping (I := (· = s)) (fun _ _ h => h.elim)
        (fun _ _ _ _ hc ha hu => (hc.frame ha).trans hu) (fun _ _ _ _ => trivial)
        (fun _ _ h => h) (fun _ _ _ => trivial) (fun _ _ => trivial) rfl
    refine ⟨hsame.returns h, ?_⟩
    have hends := (zero_endsIn_opening hover).meets.returns h
    cases r with
    | ok a => exact hends.elim
    | error f => exact ⟨f, rfl, hends⟩
  · have hmeets : World.taking.Meets ⟨World.taking.CanGoOn, fun _ t => t = s, fun _ _ => False,
        fun _ => False⟩ m.map s :=
      (map_makes rfl fun _ hc _ => hc).meets_finishing (I := (· = s)) (map_finishes rfl)
        (fun _ _ h => h.elim) (fun _ _ _ _ hc ha ht => (hc.frame ha).trans ht)
        (fun _ _ _ hc => hc.canGoOn) (fun _ _ h => h) rfl
    exact hmeets.attains ⟨fun _ => ⟨_, fun _ h => h.elim⟩⟩ (fun _ _ h => h) (fun _ _ h => h)
      (fun _ _ => id) fun _ => id
  · intro n readable writable fd o next t h
    have hmeets : World.taking.Meets ⟨fun _ c => ∀ n readable writable fd o,
        c = .mapMemory n readable writable fd o → n = size ∧ o = offset, fun _ _ => True,
        fun _ _ => True, fun _ => True⟩ m.map s :=
      (map_makes rfl fun _ _ h => h).meets_calls (fun _ _ h => h) (fun _ _ => trivial)
        (fun _ _ => trivial) fun _ => trivial
    obtain ⟨rfl, rfl⟩ := hmeets.calls h _ _ _ _ _ rfl
    exact ⟨rfl, rfl, signed_eq_iff o⟩

/-- Two pages, the second of which the range is about. -/
theorem extent_fits_of_pages : ∃ m,
    describe ⟨[102]⟩ 4096 4096 true true 0o600 = .ok m ∧
      World.taking.Attains (m.zero 4096).run ⟨0, 0⟩ fun r t => r = .ok () → t.taken = 8192 := by
  have hnew : describe ⟨[102]⟩ 4096 4096 true true 0o600 =
      .ok { file := ⟨[102]⟩, size := 4096, offset := 4096, readable := true, writable := true
            permissions := 0o600 } := by decide +kernel
  have hrounds : Limits.pageSize + 0 ≤ 4096 := by decide
  have hattains := (extent_fits (s := ⟨0, 0⟩) hnew hrounds).1 (by decide)
  exact ⟨_, hnew, { hattains with only := fun r t h hr => by simpa using hattains.only r t h hr }⟩

/-- Half of all there is, from the middle on. -/
theorem zero_overflows_at_half : ∃ m,
    describe ⟨[109]⟩ (2 ^ 63) (2 ^ 63) true true 0o600 = .ok m ∧ 2 ^ 63 < wordLimit ∧
      (∀ rounds s, World.taking.Breaks (m.zero rounds).run s "attempt to add with overflow" s) ∧
      (∀ rounds s t, ¬World.taking.Returns (m.zero rounds).run s (.ok ()) t) ∧
      signed (2 ^ 63) = -2 ^ 63 := by
  let m : MappedFile := { file := ⟨[109]⟩, size := 2 ^ 63, offset := 2 ^ 63, readable := true
                          writable := true, permissions := 0o600 }
  have hover : wordLimit ≤ m.size + m.offset := by decide
  refine ⟨m, by decide +kernel, by decide, fun rounds s => exists_overflow s rfl hover,
    fun rounds s t h => ?_, by decide⟩
  exact (zero_endsIn_opening hover).meets.returns h

end MappedFile

end OwnedHandles
