import OwnedHandles.Text.Decoding

namespace OwnedHandles.Text

def tail (n : Nat) : UInt8 := UInt8.ofNat (n % 64 + 0x80)

@[simp] theorem tail_mod (n : Nat) : tail (n % 64) = tail n := by
  simp [tail]

theorem tail_toNat (n : Nat) : (tail n).toNat = n % 64 + 0x80 := by
  unfold tail
  rw [UInt8.toNat_ofNat']
  omega

theorem continuation_zero (value taken : Nat) (rest : Bytes) :
    continuation 0 value taken rest = (some value, taken) := by
  simp [continuation]

theorem continuation_tail (need value taken n : Nat) (rest : Bytes) :
    continuation (need + 1) value taken (tail n :: rest) =
      continuation need (64 * value + n % 64) (taken + 1) rest := by
  have hin : 0x80 ≤ tail n ∧ tail n ≤ 0xBF := by
    simp only [UInt8.le_iff_toNat_le, tail_toNat]
    exact ⟨Nat.le_add_left 128 _, by change n % 64 + 128 ≤ 191; omega⟩
  rw [continuation, if_pos hin, tail_toNat]
  congr 2
  omega

def opens (count value : Nat) (b c : UInt8) : Bool :=
  0x80 ≤ b && following b = count + 1 && leading b = value &&
    match secondRange b with
    | some (low, high) => low ≤ c && c ≤ high
    | none => false

theorem scalar_of_opens {count value n : Nat} {b : UInt8} (h : opens count value b (tail n) = true)
    (rest : Bytes) :
    scalar b (tail n :: rest) =
      ((continuation count (64 * value + n % 64) 1 rest).1.map Char.ofNat,
        (continuation count (64 * value + n % 64) 1 rest).2) := by
  simp only [opens, Bool.and_eq_true, decide_eq_true_eq] at h
  obtain ⟨⟨⟨hb, hcount⟩, hvalue⟩, hrange⟩ := h
  have hsix : (tail n).toNat % 64 = n % 64 := by
    rw [tail_toNat]
    omega
  unfold scalar
  rw [if_neg (UInt8.not_lt.mpr hb)]
  split at hrange
  · rename_i low high hsecond
    have hin : low ≤ tail n ∧ tail n ≤ high := by simpa using hrange
    simp only [hsecond, if_pos hin, hcount, hvalue, hsix, Nat.add_sub_cancel]
  · cases hrange

theorem opens_two : ∀ l < 32, 2 ≤ l → ∀ s < 64,
    opens 0 l (UInt8.ofNat (l + 0xC0)) (tail s) = true := by
  decide +kernel

theorem opens_three : ∀ l < 16, ∀ s < 64, (l = 0 → 32 ≤ s) → (l = 13 → s < 32) →
    opens 1 l (UInt8.ofNat (l + 0xE0)) (tail s) = true := by
  decide +kernel

theorem opens_four : ∀ l < 5, ∀ s < 64, (l = 0 → 16 ≤ s) → (l = 4 → s < 16) →
    opens 2 l (UInt8.ofNat (l + 0xF0)) (tail s) = true := by
  decide +kernel

theorem scalar_encodeChar (c : Char) (rest : Bytes) :
    ∃ b more, String.utf8EncodeChar c = b :: more ∧
      scalar b (more ++ rest) = (some c, more.length) := by
  have hvalid : c.toNat < 0xD800 ∨ 0xDFFF < c.toNat ∧ c.toNat < 0x110000 := c.valid
  have hvalue {n : Nat} (h : n = c.toNat) : some (Char.ofNat n) = some c := by
    rw [h, Char.ofNat_toNat]
  have htail (n : Nat) : UInt8.ofNat (n % 0x40 + 0x80) = tail n := rfl
  unfold String.utf8EncodeChar
  simp only [htail, show c.val.toNat = c.toNat from rfl]
  split
  · rename_i hone
    have hbyte : (UInt8.ofNat c.toNat).toNat = c.toNat := by
      rw [UInt8.toNat_ofNat']
      omega
    have hlt : UInt8.ofNat c.toNat < 0x80 := by
      rw [UInt8.lt_iff_toNat_lt, hbyte]
      exact Nat.lt_succ_of_le hone
    exact ⟨_, [], rfl, by simp [scalar, hlt, hbyte]⟩
  split
  · have hopens := opens_two (c.toNat / 64 % 0x20) (by omega) (by omega) (c.toNat % 64) (by omega)
    rw [tail_mod] at hopens
    refine ⟨_, [tail c.toNat], rfl, ?_⟩
    simp only [List.cons_append, List.nil_append, scalar_of_opens hopens, continuation_zero,
      Option.map_some]
    rw [hvalue (by omega)]
    rfl
  split
  · have hopens := opens_three (c.toNat / 4096 % 0x10) (by omega) (c.toNat / 64 % 64) (by omega)
      (by omega) (by omega)
    rw [tail_mod] at hopens
    refine ⟨_, [tail (c.toNat / 64), tail c.toNat], rfl, ?_⟩
    simp only [List.cons_append, List.nil_append, scalar_of_opens hopens, continuation_tail,
      continuation_zero, Option.map_some]
    rw [hvalue (by omega)]
    rfl
  · have hopens := opens_four (c.toNat / 262144 % 0x08) (by omega) (c.toNat / 4096 % 64) (by omega)
      (by omega) (by omega)
    rw [tail_mod] at hopens
    refine ⟨_, [tail (c.toNat / 4096), tail (c.toNat / 64), tail c.toNat], rfl, ?_⟩
    simp only [List.cons_append, List.nil_append, scalar_of_opens hopens, continuation_tail,
      continuation_zero, Option.map_some]
    rw [hvalue (by omega)]
    rfl

theorem scalars_encodeChar (c : Char) (acc : List (Option Char)) (rest : Bytes) :
    scalars acc (String.utf8EncodeChar c ++ rest) = scalars (some c :: acc) rest := by
  obtain ⟨b, more, hencode, hscalar⟩ := scalar_encodeChar c rest
  rw [hencode, List.cons_append, scalars, hscalar]
  simp only [List.drop_left]

theorem scalars_encode_append (cs : List Char) (acc : List (Option Char)) (rest : Bytes) :
    scalars acc (cs.flatMap String.utf8EncodeChar ++ rest) =
      scalars ((cs.map some).reverse ++ acc) rest := by
  induction cs generalizing acc with
  | nil => rfl
  | cons c cs ih => simp [scalars_encodeChar, ih]

theorem scalars_encode (cs : List Char) (acc : List (Option Char)) :
    scalars acc (cs.flatMap String.utf8EncodeChar) = (cs.map some).reverse ++ acc := by
  rw [← List.append_nil (cs.flatMap _), scalars_encode_append, scalars]

theorem le_length_scalars (acc : List (Option Char)) (bs : Bytes) :
    acc.length ≤ (scalars acc bs).length := by
  fun_induction scalars acc bs with
  | case1 acc => exact Nat.le_refl _
  | case2 acc b rest c taken hscalar ih => exact Nat.le_of_succ_le ih

theorem lt_length_scalars (acc : List (Option Char)) {bs : Bytes} (h : bs ≠ []) :
    acc.length < (scalars acc bs).length := by
  cases bs with
  | nil => exact absurd rfl h
  | cons b rest =>
    rw [scalars]
    exact le_length_scalars (_ :: acc) _

end OwnedHandles.Text

namespace OwnedHandles

theorem Bytes.ofString_eq_encode (s : String) :
    ofString s = s.toList.flatMap String.utf8EncodeChar := by
  have hbytes : s.toByteArray = s.toList.utf8Encode := by
    rw [← String.toByteArray_ofList, String.ofList_toList]
  change s.toByteArray.data.toList = _
  simp [hbytes, List.utf8Encode]

namespace Text

@[simp] theorem decodeLossy_ofString (s : String) : decodeLossy (Bytes.ofString s) = s := by
  have hchars : (fun c : Option Char => c.getD replacement) ∘ some = id := rfl
  simp [decodeLossy, Bytes.ofString_eq_encode, scalars_encode, hchars]

/-- The bytes of a text. -/
def WellFormed (bs : Bytes) : Prop := ∃ s, Bytes.ofString s = bs

theorem WellFormed.append {bs cs : Bytes} (hbs : WellFormed bs) (hcs : WellFormed cs) :
    WellFormed (bs ++ cs) := by
  obtain ⟨s, rfl⟩ := hbs
  obtain ⟨t, rfl⟩ := hcs
  exact ⟨s ++ t, by simp [Bytes.ofString]⟩

theorem decodeLossy_append_ne {bs cs : Bytes} (hbs : WellFormed bs) (hcs : cs ≠ []) :
    decodeLossy (bs ++ cs) ≠ decodeLossy bs := by
  obtain ⟨s, rfl⟩ := hbs
  have hlength := lt_length_scalars ((s.toList.map some).reverse ++ []) hcs
  rw [← scalars_encode_append, ← Bytes.ofString_eq_encode] at hlength
  intro heq
  have htext : (decodeLossy (Bytes.ofString s ++ cs)).toList.length = s.toList.length := by
    rw [heq, decodeLossy_ofString]
  simp only [decodeLossy, String.toList_ofList, List.length_map, List.length_reverse,
    List.append_nil] at htext hlength
  exact absurd htext (Nat.ne_of_gt hlength)

theorem ofString_decodeLossy_iff {bs : Bytes} :
    Bytes.ofString (decodeLossy bs) = bs ↔ WellFormed bs := by
  constructor
  · intro h
    exact ⟨decodeLossy bs, h⟩
  · rintro ⟨s, rfl⟩
    rw [decodeLossy_ofString]

end Text

end OwnedHandles
