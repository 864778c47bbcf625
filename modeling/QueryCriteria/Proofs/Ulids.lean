import Mathlib.Algebra.Group.Nat.Defs
import QueryCriteria.Ulid

namespace QueryCriteria.Ulid

theorem digitValue?_digit (n : Nat) : digitValue? (digit n) = some (n % 32) := by
  have hdigits : ∀ d < 32, digitValue? ((alphabet[d]?).getD '0') = some d := by decide
  exact hdigits (n % 32) (Nat.mod_lt n (by decide))

theorem pushDigits_append (acc : BitVec 128) (cs ds : List Char) :
    pushDigits acc (cs ++ ds) = (pushDigits acc cs).bind fun acc => pushDigits acc ds := by
  induction cs generalizing acc with
  | nil => rfl
  | cons c cs ih =>
      rw [List.cons_append, pushDigits, pushDigits]
      cases digitValue? c with
      | none => rfl
      | some d => exact ih _

theorem push_ofNat (n d : Nat) (h : d < 32) :
    BitVec.ofNat 128 n <<< 5 ||| BitVec.ofNat 128 d = BitVec.ofNat 128 (32 * n + d) := by
  have hdisjoint : BitVec.ofNat 128 n <<< 5 &&& BitVec.ofNat 128 d = 0#128 := by
    refine BitVec.eq_of_getLsbD_eq fun i hi => ?_
    by_cases hlow : i < 5
    · simp [BitVec.getLsbD_shiftLeft, hlow]
    · have hle : 2 ^ 5 ≤ 2 ^ i := Nat.pow_le_pow_right (by decide) (Nat.le_of_not_lt hlow)
      have hbit : d.testBit i = false := Nat.testBit_lt_two_pow (by omega)
      simp [BitVec.getLsbD_ofNat, hbit]
  rw [← BitVec.add_eq_or_of_and_eq_zero _ _ hdisjoint]
  refine BitVec.eq_of_toNat_eq ?_
  simp [BitVec.toNat_add, Nat.shiftLeft_eq]
  omega

theorem pushDigits_digits (count n : Nat) (h : n < 32 ^ count) :
    pushDigits 0 (digits count n) = some (BitVec.ofNat 128 n) := by
  induction count generalizing n with
  | zero =>
      obtain rfl : n = 0 := by simpa using h
      rfl
  | succ count ih =>
      have hrest := ih (n / 32) (by rw [Nat.pow_succ] at h; omega)
      rw [digits, pushDigits_append, hrest, Option.bind_some, pushDigits, digitValue?_digit]
      simp only [pushDigits, push_ofNat _ _ (Nat.mod_lt n (show 32 > 0 by decide)), Nat.div_add_mod]

theorem read?_toText (u : Ulid) : read? u.toText = some u := by
  have hlength : u.toText.toList.length = 26 := by simp [toText]
  have hbits := u.bits.isLt
  rw [read?, if_pos hlength, toText, String.toList_ofList, pushDigits_digits 26 u.bits.toNat (by omega)]
  simp

end QueryCriteria.Ulid
