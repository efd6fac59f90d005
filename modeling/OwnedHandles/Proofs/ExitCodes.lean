import OwnedHandles.ExitCode
import OwnedHandles.Proofs.Numerals

namespace OwnedHandles.ExitCode

namespace Names

variable {n : Names} {c d : Int32} {t : String}

structure Complete (n : Names) : Prop where
  nonneg : 0 ≤ n.first.toInt
  length : n.entries.length = n.last.toInt + 1 - n.first.toInt

def name? (n : Names) (c : Int32) : Option String :=
  if n.first ≤ c ∧ c ≤ n.last then n.entries[(c.toInt - n.first.toInt).toNat]? else none

theorem distance_eq (hfirst : 0 ≤ n.first.toInt) (hc : n.first ≤ c) :
    distance c n.first = .done (c - n.first) ∧
      (c - n.first).toInt = c.toInt - n.first.toInt := by
  have hle := Int32.le_iff_toInt_le.mp hc
  have hmax := c.toInt_lt
  have hfits : c.toBitVec.ssubOverflow n.first.toBitVec = false := by
    simp only [BitVec.ssubOverflow, ← Int32.toInt.eq_1, Bool.or_eq_false_iff,
      decide_eq_false_iff_not]
    omega
  refine ⟨by simp [distance, hfits], ?_⟩
  exact BitVec.toInt_sub_of_not_ssubOverflow (by simp [hfits])

namespace Complete

theorem place_lt (h : n.Complete) (hc : n.first ≤ c ∧ c ≤ n.last) :
    (c.toInt - n.first.toInt).toNat < n.entries.length := by
  have hfirst := Int32.le_iff_toInt_le.mp hc.1
  have hlast := Int32.le_iff_toInt_le.mp hc.2
  have hlength := h.length
  omega

theorem find_eq (h : n.Complete) (c : Int32) : n.find c = .done (n.name? c) := by
  unfold find name?
  split
  · rename_i hc
    obtain ⟨hdistance, hoffset⟩ := distance_eq h.nonneg hc.1
    have hle := Int32.le_iff_toInt_le.mp hc.1
    have hmax := c.toInt_lt
    have hplace : place (c - n.first) = (c.toInt - n.first.toInt).toNat := by
      have hsize : (UInt64.size : Int) = 2 ^ 64 := rfl
      rw [place, hoffset, hsize]
      have := h.nonneg
      omega
    have hentry := List.getElem?_eq_getElem (h.place_lt hc)
    simp [hdistance, hplace, entry, hentry]
  · rfl

theorem isSome_name? (h : n.Complete) :
    (n.name? c).isSome = true ↔ n.first ≤ c ∧ c ≤ n.last := by
  unfold name?
  split
  · rename_i hc
    simp [h.place_lt hc, hc]
  · rename_i hc
    simp [hc]

end Complete

theorem mem_of_name? (h : n.name? c = some t) : t ∈ n.entries := by
  unfold name? at h
  split at h
  · exact List.mem_of_getElem? h
  · cases h

theorem name?_injective (hn : n.entries.Nodup) (hc : n.name? c = some t)
    (hd : n.name? d = some t) : c = d := by
  unfold name? at hc hd
  split at hc
  · rename_i hcrange
    split at hd
    · rename_i hdrange
      obtain ⟨hi, -⟩ := List.getElem?_eq_some_iff.mp hc
      have hplace := (List.getElem?_inj hi hn).mp (hc.trans hd.symm)
      have hcfirst := Int32.le_iff_toInt_le.mp hcrange.1
      have hdfirst := Int32.le_iff_toInt_le.mp hdrange.1
      exact Int32.toInt_inj.mp (by omega)
    · cases hd
  · cases hc

end Names

theorem sysexits_complete : sysexits.Complete := ⟨by decide, by decide⟩

theorem testResults_complete : testResults.Complete := ⟨by decide, by decide⟩

def name? (c : Int32) : Option String :=
  if c = 0 then some okName else (sysexits.name? c).or (testResults.name? c)

theorem text_eq (c : Int32) : text c = .done (name? c) := by
  unfold text name?
  split
  · rfl
  · rw [sysexits_complete.find_eq]
    cases hname : sysexits.name? c with
    | none => simp [testResults_complete.find_eq]
    | some t => simp

def Known (c : Int32) : Prop :=
  c = 0 ∨ (64 ≤ c ∧ c ≤ 78) ∨ (182 ≤ c ∧ c ≤ 186)

theorem isSome_name?_iff (c : Int32) : (name? c).isSome = true ↔ Known c := by
  unfold name? Known
  split
  · simp [*]
  · rw [Option.isSome_or, Bool.or_eq_true, sysexits_complete.isSome_name?,
      testResults_complete.isSome_name?]
    simp [*, sysexits, testResults, Limits.sysexitsFirst, Limits.sysexitsLast,
      Limits.testExitFirst, Limits.testExitLast]

theorem entries_nodup : (okName :: (sysexits.entries ++ testResults.entries)).Nodup := by decide

theorem name?_cases {c : Int32} {t : String} (h : name? c = some t) :
    (c = 0 ∧ t = okName) ∨ sysexits.name? c = some t ∨ testResults.name? c = some t := by
  unfold name? at h
  split at h
  · exact .inl ⟨‹_›, (Option.some.inj h).symm⟩
  · obtain h | ⟨-, h⟩ := Option.or_eq_some_iff.mp h
    · exact .inr (.inl h)
    · exact .inr (.inr h)

theorem name?_injective {c d : Int32} {t : String} (hc : name? c = some t)
    (hd : name? d = some t) : c = d := by
  obtain ⟨hok, hentries⟩ := List.nodup_cons.mp entries_nodup
  obtain ⟨hsysexits, htests, hapart⟩ := List.nodup_append.mp hentries
  rw [List.mem_append, not_or] at hok
  obtain ⟨rfl, rfl⟩ | hc | hc := name?_cases hc
  · obtain ⟨rfl, -⟩ | hd | hd := name?_cases hd
    · rfl
    · exact absurd (Names.mem_of_name? hd) hok.1
    · exact absurd (Names.mem_of_name? hd) hok.2
  · obtain ⟨rfl, rfl⟩ | hd | hd := name?_cases hd
    · exact absurd (Names.mem_of_name? hc) hok.1
    · exact Names.name?_injective hsysexits hc hd
    · exact absurd rfl (hapart _ (Names.mem_of_name? hc) _ (Names.mem_of_name? hd))
  · obtain ⟨rfl, rfl⟩ | hd | hd := name?_cases hd
    · exact absurd (Names.mem_of_name? hc) hok.2
    · exact absurd rfl (hapart _ (Names.mem_of_name? hd) _ (Names.mem_of_name? hc))
    · exact Names.name?_injective htests hc hd

def shown (c : Int32) : String :=
  match name? c with
  | some t => t ++ "(" ++ toString c ++ ")"
  | none => toString c

theorem pretty_eq (c : Int32) : pretty c = .done (shown c) := by
  unfold pretty shown
  rw [text_eq]
  cases hname : name? c <;> rfl

def codeOf? (t : String) : Option Int32 := (Text.lastNumber? t).map Int32.ofInt

theorem codeOf?_shown (c : Int32) : codeOf? (shown c) = some c := by
  have hcode : Text.lastNumber? (shown c) = some c.toInt := by
    unfold shown
    cases name? c with
    | some t =>
      have hopen : ∀ b ∈ (t ++ "(").toList.getLast?, Text.isNumeral b = false := by
        simp [Text.isNumeral]
      have hclose : ∀ b ∈ ")".toList, Text.isNumeral b = false := by simp [Text.isNumeral]
      exact Text.lastNumber?_append hopen hclose c.toInt
    | none =>
      have hempty : ∀ b ∈ "".toList, Text.isNumeral b = false := by simp
      have hread := Text.lastNumber?_append (t := "") (by simp) hempty c.toInt
      rwa [String.empty_append, String.append_empty] at hread
  rw [codeOf?, hcode, Option.map_some, Int32.ofInt_toInt]

/-- No code breaks the lookup of its name. Exactly the known codes have one, each its own, and what
is shown for a code, known or not, tells the code. -/
theorem texts_tell_codes :
    (∀ c, ∃ name, text c = .done name ∧ (name.isSome = true ↔ Known c)) ∧
    (∀ c d t, text c = .done (some t) → text d = .done (some t) → c = d) ∧
    (∀ c, ∃ t, pretty c = .done t ∧ codeOf? t = some c) ∧
    Function.Injective pretty := by
  have htell (c : Int32) : ∃ t, pretty c = .done t ∧ codeOf? t = some c :=
    ⟨shown c, pretty_eq c, codeOf?_shown c⟩
  refine ⟨fun c => ⟨name? c, text_eq c, isSome_name?_iff c⟩, fun c d t hc hd => ?_, htell,
    fun c d h => ?_⟩
  · rw [text_eq] at hc hd
    exact name?_injective (Program.done.inj hc) (Program.done.inj hd)
  · obtain ⟨t, ht, hc⟩ := htell c
    obtain ⟨u, hu, hd⟩ := htell d
    obtain rfl := Program.done.inj (ht.symm.trans (h.trans hu))
    exact Option.some.inj (hc.symm.trans hd)

end OwnedHandles.ExitCode
