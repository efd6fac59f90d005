import Mathlib

namespace OwnedHandles.Text

def isNumeral (c : Char) : Bool := c.isDigit || c = '-'

def lastNumber? (t : String) : Option Int :=
  (String.ofList ((t.toList.rdropWhile fun c => !isNumeral c).rtakeWhile isNumeral)).toInt?

theorem isNumeral_of_mem {n : Int} {c : Char} (hc : c ∈ (toString n).toList) :
    isNumeral c = true := by
  have hdigit {m : Nat} (hm : c ∈ m.repr.toList) : isNumeral c = true := by
    rw [Nat.toList_repr] at hm
    simp [isNumeral, Nat.isDigit_of_mem_toDigits (by decide) (by decide) hm]
  rw [Int.toString_eq_repr, Int.repr_eq_if] at hc
  split at hc
  · exact hdigit hc
  · rw [String.toList_append, List.mem_append] at hc
    obtain hsign | hc := hc
    · obtain rfl : c = '-' := by simpa using hsign
      rfl
    · exact hdigit hc

theorem toList_toString_ne_nil (n : Int) : (toString n).toList ≠ [] := by
  rw [Int.toString_eq_repr, Int.repr_eq_if]
  split <;> simp

theorem lastNumber?_append {t u : String} (ht : ∀ c ∈ t.toList.getLast?, isNumeral c = false)
    (hu : ∀ c ∈ u.toList, isNumeral c = false) (n : Int) :
    lastNumber? (t ++ toString n ++ u) = some n := by
  have hnumber : ∀ c ∈ (toString n).toList, isNumeral c = true := fun c => isNumeral_of_mem
  have hbehind : (t ++ toString n ++ u).toList.rdropWhile (fun c => !isNumeral c) =
      t.toList ++ (toString n).toList := by
    have hu' : ∀ c ∈ u.toList.reverse, (!isNumeral c) = true := by simpa using hu
    rw [String.toList_append, List.rdropWhile, List.reverse_append,
      List.dropWhile_append_of_pos hu', ← List.rdropWhile, String.toList_append,
      List.rdropWhile_eq_self_iff]
    intro hne
    have hlast := hnumber _ (List.getLast_mem (toList_toString_ne_nil n))
    rw [List.getLast_append_of_ne_nil hne (toList_toString_ne_nil n), hlast]
    decide
  have hbefore : t.toList.rtakeWhile isNumeral = [] := by
    refine List.rtakeWhile_eq_nil_iff.mpr fun hne => ?_
    simp [ht _ (List.getLast?_eq_some_getLast hne)]
  have hnumber' : ∀ c ∈ (toString n).toList.reverse, isNumeral c = true := by simpa using hnumber
  have hend : (t.toList ++ (toString n).toList).rtakeWhile isNumeral = (toString n).toList := by
    rw [List.rtakeWhile, List.reverse_append, List.takeWhile_append_of_pos hnumber',
      List.reverse_append, ← List.rtakeWhile, hbefore, List.reverse_reverse, List.nil_append]
  rw [lastNumber?, hbehind, hend, String.ofList_toList, Int.toString_eq_repr, Int.toInt?_repr]

end OwnedHandles.Text
