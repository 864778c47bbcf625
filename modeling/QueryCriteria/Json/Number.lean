import QueryCriteria.Decimal.Digits

namespace QueryCriteria.Json

open QueryCriteria.Decimal

inductive Number where
  | whole (n : Nat)
  | negative (n : Nat)
  | float (x : Float)

def fitDigits : Nat → List Char → Nat × Nat
  | acc, [] => (acc, 0)
  | acc, c :: cs =>
      let next := 10 * acc + (c.toNat - 48)
      if next < UInt64.size then fitDigits next cs else (acc, cs.length + 1)

def powerOfTen (e : Nat) : Float :=
  Float.ofScientific 1 false e

def scaleFloat : Nat → Float → Int → Option Float
  | 0, x, _ => some x
  | fuel + 1, x, e =>
      if e.natAbs ≤ 308 then
        if 0 ≤ e then
          let y := x * powerOfTen e.natAbs
          if y.isInf then none else some y
        else some (x / powerOfTen e.natAbs)
      else if x == 0.0 then some x
      else if 0 ≤ e then none
      else scaleFloat fuel (x / powerOfTen 308) (e + 308)

def floatOf (negative : Bool) (significand : Nat) (exponent : Int) : Option Float :=
  (scaleFloat 4 (UInt64.ofNat significand).toFloat exponent).map fun x =>
    if negative then -x else x

def exponentBound : Nat := 2147483648

def readExponentPart (negative : Bool) (significand : Nat) (exponent : Int) :
    List Char → Option (Float × List Char) := fun cs =>
  let (minus, cs) :=
    match cs with
    | '+' :: r => (false, r)
    | '-' :: r => (true, r)
    | r => (false, r)
  let (ds, rest) := takeDigits cs
  if ds.isEmpty then none
  else
    let e := ofDigits ds
    if exponentBound ≤ e then
      if significand ≠ 0 ∧ !minus then none else some (if negative then -0.0 else 0.0, rest)
    else
      (floatOf negative significand (if minus then exponent - e else exponent + e)).map (·, rest)

def startsExponent : List Char → Bool
  | c :: _ => c == 'e' || c == 'E'
  | [] => false

def readFractionPart (negative : Bool) (significand : Nat) (exponent : Int) (cs : List Char) :
    Option (Float × List Char) :=
  let (ds, rest) := takeDigits cs
  if ds.isEmpty then none
  else
    let (significand, leftOut) := fitDigits significand ds
    let exponent := exponent - (ds.length - leftOut : Nat)
    if startsExponent rest then readExponentPart negative significand exponent rest.tail
    else (floatOf negative significand exponent).map (·, rest)

def readDigits (negative : Bool) (cs : List Char) : Option (Number × List Char) :=
  let (ds, rest) := takeDigits cs
  if ds.isEmpty || (ds.length > 1 && ds.head? == some '0') then none
  else
    let (significand, leftOut) := fitDigits 0 ds
    let asFloat (r : Option (Float × List Char)) : Option (Number × List Char) :=
      r.map fun (x, rest) => (.float x, rest)
    match rest with
    | '.' :: r => asFloat (readFractionPart negative significand leftOut r)
    | r =>
        if startsExponent r then asFloat (readExponentPart negative significand leftOut r.tail)
        else if leftOut ≠ 0 then asFloat ((floatOf negative significand leftOut).map (·, r))
        else if !negative then some (.whole significand, r)
        else if significand = 0 ∨ UInt64.size < 2 * significand then
          some (.float (-(UInt64.ofNat significand).toFloat), r)
        else some (.negative significand, r)

def readNumber : List Char → Option (Number × List Char)
  | '-' :: cs => readDigits true cs
  | cs => readDigits false cs

end QueryCriteria.Json
