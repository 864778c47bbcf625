import QueryCriteria.Decimal.Digits
import QueryCriteria.Decimal.Shortest

namespace QueryCriteria.Decimal

inductive Literal where
  | nan
  | infinite (negative : Bool)
  | number (negative : Bool) (numeral : Numeral)
deriving DecidableEq, Repr

def readExponent : List Char → Option Int
  | [] => some 0
  | c :: cs =>
      if c = 'e' ∨ c = 'E' then
        match cs with
        | '-' :: ds => (wholeDigits ds).map fun n => -(n : Int)
        | '+' :: ds => (wholeDigits ds).map fun n => (n : Int)
        | ds => (wholeDigits ds).map fun n => (n : Int)
      else none
where
  wholeDigits (ds : List Char) : Option Nat :=
    if ds.isEmpty || !ds.all Char.isDigit then none else some (ofDigits ds)

def readNumeral (cs : List Char) : Option Numeral :=
  let (whole, rest) := takeDigits cs
  let (fraction, tail) :=
    match rest with
    | '.' :: r => takeDigits r
    | r => ([], r)
  if whole.isEmpty && fraction.isEmpty then none
  else (readExponent tail).map fun e => ⟨ofDigits (whole ++ fraction), e - fraction.length⟩

def readUnsigned (negative : Bool) (cs : List Char) : Option Literal :=
  match cs.map Char.toLower with
  | ['n', 'a', 'n'] => some .nan
  | ['i', 'n', 'f'] => some (.infinite negative)
  | ['i', 'n', 'f', 'i', 'n', 'i', 't', 'y'] => some (.infinite negative)
  | _ => (readNumeral cs).map (.number negative)

def Literal.read (s : String) : Option Literal :=
  match s.toList with
  | '-' :: cs => readUnsigned true cs
  | '+' :: cs => readUnsigned false cs
  | cs => readUnsigned false cs

def Numeral.saturate (n : Numeral) (least greatest : Int) : Numeral :=
  let top := n.exponent + (digits n.coefficient).length
  if n.coefficient = 0 ∨ top < least then ⟨0, 0⟩
  else if greatest < top then ⟨1, greatest⟩
  else n

def Numeral.toFloat (n : Numeral) : Float :=
  let m := n.saturate (-400) 400
  Float.ofScientific m.coefficient (m.exponent < 0) m.exponent.natAbs

def Numeral.toFloat32 (n : Numeral) : Float32 :=
  let m := n.saturate (-400) 400
  Float32.ofScientific m.coefficient (m.exponent < 0) m.exponent.natAbs

def Literal.toFloat : Literal → Float
  | .nan => 0.0 / 0.0
  | .infinite negative => if negative then -1.0 / 0.0 else 1.0 / 0.0
  | .number negative n => if negative then -n.toFloat else n.toFloat

def Literal.toNarrowFloat : Literal → Float
  | .number negative n => if negative then -n.toFloat32.toFloat else n.toFloat32.toFloat
  | l => l.toFloat

end QueryCriteria.Decimal
