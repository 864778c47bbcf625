namespace QueryCriteria

structure Ulid where
  bits : BitVec 128
deriving DecidableEq, Repr

namespace Ulid

def alphabet : List Char :=
  ['0', '1', '2', '3', '4', '5', '6', '7', '8', '9', 'A', 'B', 'C', 'D', 'E', 'F', 'G', 'H', 'J',
    'K', 'M', 'N', 'P', 'Q', 'R', 'S', 'T', 'V', 'W', 'X', 'Y', 'Z']

def digit (n : Nat) : Char :=
  (alphabet[n % 32]?).getD '0'

def digitValue? (c : Char) : Option Nat :=
  alphabet.findIdx? (· == c.toUpper)

def digits : Nat → Nat → List Char
  | 0, _ => []
  | count + 1, n => digits count (n / 32) ++ [digit n]

def toText (u : Ulid) : String :=
  String.ofList (digits 26 u.bits.toNat)

def pushDigits : BitVec 128 → List Char → Option (BitVec 128)
  | acc, [] => some acc
  | acc, c :: cs =>
      match digitValue? c with
      | some d => pushDigits (acc <<< 5 ||| BitVec.ofNat 128 d) cs
      | none => none

def read? (s : String) : Option Ulid :=
  if s.toList.length = 26 then (pushDigits 0 s.toList).map Ulid.mk else none

@[simp]
theorem length_digits (count n : Nat) : (digits count n).length = count := by
  induction count generalizing n with
  | zero => rfl
  | succ count ih => simp [digits, ih]

end Ulid

end QueryCriteria
