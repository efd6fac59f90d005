import Mathlib
import OwnedHandles.Proofs.Encoding
import OwnedHandles.Proofs.Spellings

namespace OwnedHandles.Text

variable {b c : UInt8} {bs cs : Bytes} {acc : List (Option Char)}

def reencode (bs : Bytes) : Bytes := Bytes.ofString (decodeLossy bs)

theorem reencode_eq (bs : Bytes) : reencode bs =
    (scalars [] bs).reverse.flatMap fun c => String.utf8EncodeChar (c.getD replacement) := by
  simp only [reencode, decodeLossy, Bytes.ofString_eq_encode, String.toList_ofList,
    List.flatMap_map]

section Ascii

theorem continuation_append (hc : c < 0x80) (need value taken : Nat) (bs cs : Bytes) :
    continuation need value taken (bs ++ c :: cs) = continuation need value taken bs := by
  induction need generalizing value taken bs with
  | zero => simp [continuation]
  | succ need ih =>
    cases bs with
    | nil =>
      have hno : ¬(0x80 ≤ c ∧ c ≤ 0xBF) := fun h => absurd hc (UInt8.not_lt.mpr h.1)
      simp [continuation, hno]
    | cons b bs => simp [continuation, ih]

theorem continuation_taken (need value taken : Nat) (bs : Bytes) :
    (continuation need value taken bs).2 ≤ taken + bs.length := by
  induction need generalizing value taken bs with
  | zero => simp [continuation]
  | succ need ih =>
    cases bs with
    | nil => simp [continuation]
    | cons b bs =>
      unfold continuation
      split
      · exact Nat.le_trans (ih _ _ bs) (by simp only [List.length_cons]; omega)
      · simp

def opensRightly (b : UInt8) : Bool :=
  match secondRange b with
  | some (low, high) => 0x80 ≤ low && high ≤ 0xBF &&
      0x80 ≤ (64 * leading b + low.toNat % 64) * 64 ^ (following b - 1)
  | none => true

theorem opensRightly_ofNat :
    ∀ h < 16, ∀ l < 16, opensRightly (UInt8.ofNat (16 * h + l)) = true := by
  decide +kernel

theorem opens_rightly {low high : UInt8} (h : secondRange b = some (low, high)) :
    0x80 ≤ low ∧ high ≤ 0xBF ∧
      0x80 ≤ (64 * leading b + low.toNat % 64) * 64 ^ (following b - 1) := by
  have hb : b.toNat < 256 := b.toNat_lt
  have hopens := opensRightly_ofNat (b.toNat / 16) (by omega) (b.toNat % 16) (by omega)
  rw [Nat.div_add_mod, UInt8.ofNat_toNat, opensRightly, h] at hopens
  simpa [and_assoc] using hopens

theorem scalar_append (hc : c < 0x80) (b : UInt8) (bs cs : Bytes) :
    scalar b (bs ++ c :: cs) = scalar b bs := by
  unfold scalar
  split
  · rfl
  cases hsecond : secondRange b with
  | none => simp
  | some range =>
    obtain ⟨low, high⟩ := range
    cases bs with
    | nil =>
      have hno : ¬(low ≤ c ∧ c ≤ high) := fun h =>
        absurd hc (UInt8.not_lt.mpr (UInt8.le_trans (opens_rightly hsecond).1 h.1))
      simp [hno]
    | cons d bs => simp [continuation_append hc]

theorem scalar_taken (b : UInt8) (bs : Bytes) : (scalar b bs).2 ≤ bs.length := by
  unfold scalar
  split
  · simp
  split
  · split
    · exact Nat.le_trans (continuation_taken _ _ _ _) (by simp only [List.length_cons]; omega)
    · simp
  · simp

theorem scalars_append (hc : c < 0x80) (acc : List (Option Char)) (bs cs : Bytes) :
    scalars acc (bs ++ c :: cs) = scalars (some (Char.ofNat c.toNat) :: scalars acc bs) cs := by
  fun_induction scalars acc bs with
  | case1 acc => simp [scalars, scalar, hc]
  | case2 acc b rest d taken hscalar ih =>
    have htaken : taken ≤ rest.length := by simpa [hscalar] using scalar_taken b rest
    rw [List.cons_append, scalars, scalar_append hc, hscalar]
    simp only [List.drop_append_of_le_length htaken, ih]

theorem le_of_continuation {need value taken v n : Nat}
    (h : continuation need value taken bs = (some v, n)) : value * 64 ^ need ≤ v := by
  induction need generalizing value taken bs with
  | zero =>
    obtain ⟨rfl, -⟩ : value = v ∧ _ := by simpa [continuation] using h
    simp
  | succ need ih =>
    cases bs with
    | nil => simp [continuation] at h
    | cons b bs =>
      unfold continuation at h
      split at h
      · refine Nat.le_trans ?_ (ih h)
        rw [Nat.pow_succ', ← Nat.mul_assoc]
        exact Nat.mul_le_mul_right _ (by omega)
      · cases h

theorem le_opened {low high : UInt8} (h : secondRange b = some (low, high)) (hlow : low ≤ c)
    (hhigh : c ≤ high) : 0x80 ≤ (64 * leading b + c.toNat % 64) * 64 ^ (following b - 1) := by
  obtain ⟨hl, hh, hvalue⟩ := opens_rightly h
  simp only [UInt8.le_iff_toNat_le] at hl hh hlow hhigh
  have hl' : 128 ≤ low.toNat := hl
  have hh' : high.toNat ≤ 191 := hh
  exact Nat.le_trans hvalue (Nat.mul_le_mul_right _ (by omega))

theorem le_of_scalar {d : Char} {n : Nat} (hb : ¬b < 0x80) (h : scalar b bs = (some d, n)) :
    ∃ v, d = Char.ofNat v ∧ 0x80 ≤ v := by
  unfold scalar at h
  rw [if_neg hb] at h
  split at h
  · rename_i low high c more hsecond
    split at h
    · rename_i hin
      obtain ⟨hd, -⟩ := Prod.mk.inj h
      obtain ⟨v, hv, rfl⟩ := Option.map_eq_some_iff.mp hd
      exact ⟨v, rfl, Nat.le_trans (le_opened hsecond hin.1 hin.2)
        (le_of_continuation (n := _) (Prod.ext hv rfl))⟩
    · cases h
  · cases h

theorem scalars_acc (acc : List (Option Char)) (bs : Bytes) :
    scalars acc bs = scalars [] bs ++ acc := by
  induction h : bs.length using Nat.strongRecOn generalizing acc bs with
  | _ n ih =>
    cases bs with
    | nil => simp [scalars]
    | cons b rest =>
      have hdrop : (rest.drop (scalar b rest).2).length < n := by
        rw [← h, List.length_drop, List.length_cons]
        omega
      rw [scalars, scalars]
      simp only [ih _ hdrop (_ :: acc) _ rfl, ih _ hdrop [_] _ rfl, List.append_assoc,
        List.singleton_append]

theorem mem_scalars {x : Option Char} (h : x ∈ scalars acc bs) : x ∈ acc ∨ x = none ∨
    (∃ b ∈ bs, b < 0x80 ∧ x = some (Char.ofNat b.toNat)) ∨
      ∃ v, 0x80 ≤ v ∧ x = some (Char.ofNat v) := by
  fun_induction scalars acc bs with
  | case1 acc => exact .inl h
  | case2 acc b rest d taken hscalar ih =>
    obtain hacc | hnone | ⟨b', hb', hascii⟩ | hv := ih h
    · obtain rfl | hacc := List.mem_cons.mp hacc
      · refine .inr ?_
        cases x with
        | none => exact .inl rfl
        | some d =>
          refine .inr ?_
          by_cases hb : b < 0x80
          · refine .inl ⟨b, List.mem_cons_self, hb, ?_⟩
            simpa [scalar, hb, eq_comm] using (congrArg Prod.fst hscalar)
          · obtain ⟨v, rfl, hv⟩ := le_of_scalar hb hscalar
            exact .inr ⟨v, hv, rfl⟩
      · exact .inl hacc
    · exact .inr (.inl hnone)
    · exact .inr (.inr (.inl ⟨b', List.mem_cons_of_mem _ (List.mem_of_mem_drop hb'), hascii⟩))
    · exact .inr (.inr (.inr hv))

end Ascii

section Encoded

theorem toNat_ofNat_ascii (hc : c < 0x80) : (Char.ofNat c.toNat).toNat = c.toNat := by
  have hlt : c.toNat < 128 := hc
  have hvalid : c.toNat.isValidChar := .inl (by omega)
  rw [Char.ofNat, dif_pos hvalid]
  rfl

theorem encode_ascii (hc : c < 0x80) : String.utf8EncodeChar (Char.ofNat c.toNat) = [c] := by
  have hlt : c.toNat < 128 := hc
  have hval : (Char.ofNat c.toNat).val.toNat = c.toNat := toNat_ofNat_ascii hc
  unfold String.utf8EncodeChar
  simp only [hval]
  rw [if_pos (by omega), UInt8.ofNat_toNat]

theorem mem_encode {d : Char} (hc : c < 0x80) (h : c ∈ String.utf8EncodeChar d) :
    d.toNat = c.toNat := by
  have hlt : c.toNat < 128 := hc
  have hval : d.val.toNat = d.toNat := rfl
  unfold String.utf8EncodeChar at h
  simp only [hval] at h
  repeat' split at h
  · obtain rfl := List.mem_singleton.mp h
    rw [UInt8.toNat_ofNat']
    omega
  -- every byte of a longer character is behind ASCII
  all_goals
    simp only [List.mem_cons, List.not_mem_nil, or_false] at h
    rcases h with rfl | rfl | rfl | rfl <;> (rw [UInt8.toNat_ofNat'] at hlt; omega)

/-- An ASCII byte parts what is read before it from what is read behind it. -/
theorem reencode_append (hc : c < 0x80) (bs cs : Bytes) :
    reencode (bs ++ c :: cs) = reencode bs ++ c :: reencode cs := by
  simp only [reencode_eq]
  rw [scalars_append hc, scalars_acc]
  simp [encode_ascii hc]

@[simp] theorem reencode_nil : reencode [] = [] := by
  simp [reencode_eq, scalars]

theorem mem_of_mem_reencode (hc : c < 0x80) (hzero : c ≠ 0) (h : c ∈ reencode bs) : c ∈ bs := by
  have hne : c.toNat ≠ 0 := fun h => hzero (UInt8.toNat_inj.mp h)
  have hlt : c.toNat < 128 := hc
  rw [reencode_eq] at h
  obtain ⟨x, hx, hencode⟩ := List.mem_flatMap.mp h
  have hvalue := mem_encode hc hencode
  obtain hacc | rfl | ⟨b, hb, hascii, rfl⟩ | ⟨v, hv, rfl⟩ := mem_scalars (List.mem_reverse.mp hx)
  · cases hacc
  · have hreplacement : replacement.toNat = 0xFFFD := by decide
    have := hreplacement.symm.trans hvalue
    omega
  · have : b.toNat = c.toNat := (toNat_ofNat_ascii hascii).symm.trans hvalue
    rwa [← UInt8.toNat_inj.mp this]
  · change (Char.ofNat v).toNat = _ at hvalue
    unfold Char.ofNat at hvalue
    split at hvalue
    · have hv' : v = c.toNat := hvalue
      omega
    · exact absurd hvalue.symm hne

@[simp] theorem reencode_eq_nil : reencode bs = [] ↔ bs = [] := by
  constructor
  · intro h
    rw [reencode_eq] at h
    cases bs with
    | nil => rfl
    | cons b rest =>
      have hlength := lt_length_scalars [] (List.cons_ne_nil b rest)
      obtain ⟨x, xs, hx⟩ := List.exists_cons_of_length_pos hlength
      have hencode := List.flatMap_eq_nil_iff.mp h x (by simp [hx])
      obtain ⟨b', more, hchar, -⟩ := scalar_encodeChar (x.getD replacement) []
      cases hchar.symm.trans hencode
  · rintro rfl
    exact reencode_nil

@[simp] theorem reencode_eq_dot : reencode bs = Route.dot ↔ bs = Route.dot := by
  constructor
  · intro h
    have hmem : 0x2e ∈ bs :=
      mem_of_mem_reencode (by decide) (by decide) (h ▸ List.mem_singleton_self _)
    obtain ⟨front, back, rfl, -⟩ := List.eq_append_cons_of_mem hmem
    rw [reencode_append (by decide)] at h
    have hlength := congrArg List.length h
    simp only [List.length_append, List.length_cons, Route.dot, List.length_nil] at hlength
    have hfront : front = [] := reencode_eq_nil.mp (List.length_eq_zero_iff.mp (by omega))
    have hback : back = [] := reencode_eq_nil.mp (List.length_eq_zero_iff.mp (by omega))
    rw [hfront, hback]
    rfl
  · rintro rfl
    decide +kernel

end Encoded

section Routes

open Route

theorem slash_induction {motive : Bytes → Prop} (part : ∀ x, slash ∉ x → motive x)
    (step : ∀ x rest, slash ∉ x → motive rest → motive (x ++ slash :: rest)) (path : Bytes) :
    motive path := by
  induction h : path.length using Nat.strongRecOn generalizing path with
  | _ n ih =>
    by_cases hmem : slash ∈ path
    · obtain ⟨x, rest, rfl, hx⟩ := List.eq_append_cons_of_mem hmem
      refine step x rest hx (ih rest.length ?_ rest rfl)
      rw [← h, List.length_append, List.length_cons]
      omega
    · exact part path hmem

theorem splitFrom_of_not_mem {x : Bytes} (h : slash ∉ x) (part : Bytes) :
    splitFrom part x = [part.reverse ++ x] := by
  induction x generalizing part with
  | nil => simp [splitFrom]
  | cons b x ih =>
    simp only [List.mem_cons, not_or] at h
    rw [splitFrom, if_neg (Ne.symm h.1), ih h.2]
    simp

theorem splitFrom_append {x : Bytes} (h : slash ∉ x) (part rest : Bytes) :
    splitFrom part (x ++ slash :: rest) = (part.reverse ++ x) :: split rest := by
  induction x generalizing part with
  | nil => simp [splitFrom, split]
  | cons b x ih =>
    simp only [List.mem_cons, not_or] at h
    rw [List.cons_append, splitFrom, if_neg (Ne.symm h.1), ih h.2]
    simp

theorem slash_not_mem_reencode {x : Bytes} (h : slash ∉ x) : slash ∉ reencode x :=
  fun hmem => h (mem_of_mem_reencode (by decide) (by decide) hmem)

theorem split_reencode (path : Bytes) : split (reencode path) = (split path).map reencode := by
  induction path using slash_induction with
  | part x hx =>
    simp [split, splitFrom_of_not_mem hx, splitFrom_of_not_mem (slash_not_mem_reencode hx)]
  | step x rest hx ih =>
    rw [reencode_append (by decide), split, split, splitFrom_append hx,
      splitFrom_append (slash_not_mem_reencode hx), ih]
    rfl

theorem head?_eq_slash (path : Bytes) :
    path.head? = some slash ↔ path ≠ [] ∧ (split path).head? = some [] := by
  rw [split, splitFrom_head?]
  cases path with
  | nil => simp
  | cons b rest => by_cases hb : b = slash <;> simp [hb]

theorem head?_reencode (path : Bytes) :
    (reencode path).head? = some slash ↔ path.head? = some slash := by
  simp [head?_eq_slash, split_reencode]

theorem ofPath_reencode (path : Bytes) : ofPath (reencode path) =
    { ofPath path with steps := (ofPath path).steps.map reencode } := by
  simp [ofPath, head?_reencode, split_reencode, List.filter_map, Function.comp_def]

theorem endsWithSlash_reencode (path : Bytes) :
    Kernel.Walk.endsWithSlash (reencode path) = Kernel.Walk.endsWithSlash path := by
  have hno {x : Bytes} (hx : slash ∉ x) : Kernel.Walk.endsWithSlash x = false :=
    decide_eq_false fun h => hx (List.mem_of_getLast? h)
  have hstep (x rest : Bytes) : Kernel.Walk.endsWithSlash (x ++ slash :: rest) =
      (rest.isEmpty || Kernel.Walk.endsWithSlash rest) := by
    cases rest <;> simp [Kernel.Walk.endsWithSlash]
  induction path using slash_induction with
  | part x hx => rw [hno hx, hno (slash_not_mem_reencode hx)]
  | step x rest hx ih =>
    have hempty : (reencode rest).isEmpty = rest.isEmpty := by
      rw [Bool.eq_iff_iff]
      simp
    rw [reencode_append (by decide), hstep, hstep, ih, hempty]

theorem ending_reencode (path : Bytes) :
    Kernel.Walk.ending (reencode path) = Kernel.Walk.ending path := by
  have hsteps : Kernel.Walk.steps (reencode path) = (Kernel.Walk.steps path).map reencode := by
    simp [Kernel.Walk.steps, split_reencode, List.filter_map, Function.comp_def]
  have hdot : (Kernel.Walk.steps (reencode path)).getLast? = some dot ↔
      (Kernel.Walk.steps path).getLast? = some dot := by
    simp [hsteps]
  simp only [Kernel.Walk.ending, hdot, endsWithSlash_reencode]

end Routes

end OwnedHandles.Text
