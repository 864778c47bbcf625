import Mathlib.Algebra.Group.Nat.Defs
import Mathlib.Data.List.Basic
import QueryCriteria.Decimal.Digits

namespace QueryCriteria

section Runs

variable {p : Char → Bool} {cs rest : List Char}

theorem takeWhile_append_of_stop (hcs : ∀ c ∈ cs, p c = true) (hrest : ∀ c ∈ rest.head?, p c = false) :
    (cs ++ rest).takeWhile p = cs := by
  rw [List.takeWhile_append_of_pos hcs]
  cases rest with
  | nil => simp
  | cons c rest => simp [hrest c rfl]

theorem dropWhile_append_of_stop (hcs : ∀ c ∈ cs, p c = true) (hrest : ∀ c ∈ rest.head?, p c = false) :
    (cs ++ rest).dropWhile p = rest := by
  rw [List.dropWhile_append_of_pos hcs]
  cases rest with
  | nil => rfl
  | cons c rest => simp [hrest c rfl]

theorem length_le_length_flatMap {α β : Type} {f : α → List β} (h : ∀ a, f a ≠ []) (l : List α) :
    l.length ≤ (l.flatMap f).length := by
  induction l with
  | nil => exact Nat.le_refl 0
  | cons a l ih =>
      have hpos := List.length_pos_iff.mpr (h a)
      rw [List.flatMap_cons, List.length_append, List.length_cons]
      omega

end Runs

namespace Decimal

variable {n width : Nat} {rest : List Char}

theorem digits_ne_nil (n : Nat) : digits n ≠ [] :=
  Nat.toDigits_ne_nil

theorem isDigit_of_mem_digits {c : Char} (h : c ∈ digits n) : c.isDigit = true :=
  Nat.isDigit_of_mem_toDigits (by decide) (by decide) h

@[simp]
theorem ofDigits_digits (n : Nat) : ofDigits (digits n) = n :=
  Nat.ofDigitChars_ten_toDigits

theorem takeDigits_digits (n : Nat) (hrest : ∀ c ∈ rest.head?, c.isDigit = false) :
    takeDigits (digits n ++ rest) = (digits n, rest) :=
  Prod.ext (takeWhile_append_of_stop (fun _ => isDigit_of_mem_digits) hrest)
    (dropWhile_append_of_stop (fun _ => isDigit_of_mem_digits) hrest)

theorem length_digits_le (hwidth : 0 < width) (h : n < 10 ^ width) : (digits n).length ≤ width :=
  (Nat.length_toDigits_le_iff (by decide) hwidth).mpr h

theorem ofDigits_zeros (count : Nat) (cs : List Char) : ofDigits (List.replicate count '0' ++ cs) = ofDigits cs := by
  induction count with
  | zero => rfl
  | succ count ih =>
      rw [← ih]
      rfl

@[simp]
theorem ofDigits_padded (width n : Nat) : ofDigits (padded width n) = n := by
  rw [padded, ofDigits_zeros, ofDigits_digits]

theorem readFixed_padded (hwidth : 0 < width) (h : n < 10 ^ width) :
    readFixed width (padded width n ++ rest) = some (n, rest) := by
  have hlength : (padded width n).length = width := length_padded width n (length_digits_le hwidth h)
  have hdigits : (padded width n).all Char.isDigit = true := List.all_eq_true.mpr fun _ => isDigit_of_mem_padded
  rw [readFixed, List.take_left' hlength, List.drop_left' hlength, if_pos ⟨hlength, hdigits⟩, ofDigits_padded]

end Decimal

end QueryCriteria
