import QueryCriteria.Decimal.Digits
import QueryCriteria.Decimal.Shortest

namespace QueryCriteria.Decimal

structure Layout where
  positional : Option (Int × Int)
  wholeSuffix : String
  exponentPlus : String
  tie : Tie
deriving DecidableEq, Repr

def Numeral.scientificExponent (d : Numeral) : Int :=
  d.exponent + (digits d.coefficient).length - 1

def Layout.isPositional (l : Layout) (d : Numeral) : Bool :=
  match l.positional with
  | none => true
  | some (least, greatest) =>
      least ≤ d.scientificExponent && d.scientificExponent ≤ greatest

def Layout.writePositional (l : Layout) (d : Numeral) : String :=
  let ds := digits d.coefficient
  if 0 ≤ d.exponent then
    String.ofList (ds ++ List.replicate d.exponent.toNat '0') ++ l.wholeSuffix
  else
    let places := d.exponent.natAbs
    if places < ds.length then
      String.ofList (ds.take (ds.length - places) ++ '.' :: ds.drop (ds.length - places))
    else
      String.ofList ('0' :: '.' :: List.replicate (places - ds.length) '0' ++ ds)

def Layout.writeScientific (l : Layout) (d : Numeral) : String :=
  let e := d.scientificExponent
  let exponent := if e < 0 then "-" ++ toString e.natAbs else l.exponentPlus ++ toString e.natAbs
  match digits d.coefficient with
  | [] => "e" ++ exponent
  | [c] => String.singleton c ++ "e" ++ exponent
  | c :: cs => String.singleton c ++ "." ++ String.ofList cs ++ "e" ++ exponent

def Layout.write (l : Layout) (negative : Bool) (d : Numeral) : String :=
  let body := if l.isPositional d then l.writePositional d else l.writeScientific d
  if negative then "-" ++ body else body

def Layout.writeFinite (l : Layout) (negative : Bool) (mantissa : Nat) (exponent : Int) : String :=
  l.write negative (shortest l.tie mantissa exponent)

def Layout.display : Layout := ⟨none, "", "", .greater⟩

def Layout.json : Layout := ⟨some (-5, 15), ".0", "+", .even⟩

def displayFloat (x : Float) : String :=
  match Binary.ofFloat x with
  | .nan => "NaN"
  | .infinite negative => if negative then "-inf" else "inf"
  | .finite negative m e => Layout.display.writeFinite negative m e

def jsonFloat? (x : Float) : Option String :=
  match Binary.ofFloat x with
  | .nan | .infinite _ => none
  | .finite negative m e => some (Layout.json.writeFinite negative m e)

end QueryCriteria.Decimal
