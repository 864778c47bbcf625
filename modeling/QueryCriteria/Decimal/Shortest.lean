import QueryCriteria.Decimal.Digits

namespace QueryCriteria.Decimal

inductive Binary where
  | nan
  | infinite (negative : Bool)
  | finite (negative : Bool) (mantissa : Nat) (exponent : Int)
deriving DecidableEq, Repr

def leadingBit : Nat := 4503599627370496

def Binary.ofFloat (x : Float) : Binary :=
  let bits : Nat := x.toBits.toNat
  let negative := bits / (2048 * leadingBit) == 1
  let biased : Nat := bits / leadingBit % 2048
  let fraction : Nat := bits % leadingBit
  if biased = 2047 then
    if fraction = 0 then .infinite negative else .nan
  else if biased = 0 then .finite negative fraction (-1074)
  else .finite negative (leadingBit + fraction) (biased - 1075)

structure Numeral where
  coefficient : Nat
  exponent : Int
deriving DecidableEq, Repr

structure Interval where
  low : Nat
  value : Nat
  high : Nat
  denominator : Nat
  closed : Bool
deriving DecidableEq, Repr

def Interval.around (mantissa : Nat) (exponent : Int) : Interval :=
  let below := if mantissa = leadingBit ∧ exponent ≠ -1074 then 1 else 2
  let scale := Nat.pow 2 (exponent - 2).toNat
  { low := (4 * mantissa - below) * scale
    value := 4 * mantissa * scale
    high := (4 * mantissa + 2) * scale
    denominator := Nat.pow 2 (2 - exponent).toNat
    closed := mantissa % 2 == 0 }

def Interval.scale (i : Interval) (e : Int) : Interval :=
  let up := Nat.pow 10 e.toNat
  { i with
    low := i.low * up
    value := i.value * up
    high := i.high * up
    denominator := i.denominator * Nat.pow 10 (-e).toNat }

def Interval.holds (i : Interval) (n : Nat) : Bool :=
  if i.closed then i.low ≤ n * i.denominator && n * i.denominator ≤ i.high
  else i.low < n * i.denominator && n * i.denominator < i.high

inductive Tie where
  | even
  | greater
deriving DecidableEq, Repr

def Tie.choose (tie : Tie) (d : Nat) : Nat :=
  match tie with
  | .even => d + d % 2
  | .greater => d + 1

def Interval.nearest? (i : Interval) (tie : Tie) : Option Nat :=
  let d := i.value / i.denominator
  let rest := i.value % i.denominator
  match i.holds d, i.holds (d + 1) with
  | false, false => none
  | true, false => some d
  | false, true => some (d + 1)
  | true, true =>
      if 2 * rest < i.denominator then some d
      else if 2 * rest = i.denominator then some (tie.choose d)
      else some (d + 1)

def Interval.magnitude (i : Interval) : Int :=
  let guess : Int := (digits i.value).length - (digits i.denominator).length
  if (i.scale (-guess)).value < (i.scale (-guess)).denominator then guess else guess + 1

def Interval.search (i : Interval) (tie : Tie) (magnitude : Int) : Nat → Nat → Option Numeral
  | 0, _ => none
  | left + 1, count =>
      match (i.scale (count - magnitude)).nearest? tie with
      | some n => some ⟨n, magnitude - count⟩
      | none => i.search tie magnitude left (count + 1)

def Numeral.strip : Nat → Numeral → Numeral
  | 0, d => d
  | fuel + 1, d =>
      if d.coefficient % 10 = 0 then strip fuel ⟨d.coefficient / 10, d.exponent + 1⟩ else d

def shortest (tie : Tie) (mantissa : Nat) (exponent : Int) : Numeral :=
  if mantissa = 0 then ⟨0, 0⟩
  else
    let i := Interval.around mantissa exponent
    let found := (i.search tie i.magnitude 17 1).getD ⟨mantissa, 0⟩
    found.strip 17

end QueryCriteria.Decimal
