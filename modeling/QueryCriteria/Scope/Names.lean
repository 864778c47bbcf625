import QueryCriteria.Text.NameMap

namespace QueryCriteria

structure NumberedNames where
  stem : String
  issued : UInt64 := 0
deriving DecidableEq, Repr

namespace NumberedNames

def name (stem : String) (n : UInt64) : String :=
  stem ++ toString n.toNat

def advance (ns : NumberedNames) (count : Nat) : NumberedNames :=
  { ns with issued := ns.issued + UInt64.ofNat count }

def draw (ns : NumberedNames) : String × NumberedNames :=
  (name ns.stem (ns.issued + 1), ns.advance 1)

def drawMany : Nat → NumberedNames → List String × NumberedNames
  | 0, ns => ([], ns)
  | count + 1, ns =>
      let (first, ns) := ns.draw
      let (rest, ns) := drawMany count ns
      (first :: rest, ns)

def drawFreeWithin (taken : NameSet) : Nat → NumberedNames → String × NumberedNames
  | 0, ns => ns.draw
  | fuel + 1, ns =>
      let (drawn, rest) := ns.draw
      if taken.has drawn then drawFreeWithin taken fuel rest else (drawn, rest)

def drawFree (taken : NameSet) (ns : NumberedNames) : String × NumberedNames :=
  drawFreeWithin taken taken.entries.length ns

@[simp]
theorem advance_zero (ns : NumberedNames) : ns.advance 0 = ns := by
  simp [advance]

theorem advance_advance (ns : NumberedNames) (m n : Nat) :
    (ns.advance m).advance n = ns.advance (m + n) := by
  simp [advance, UInt64.add_assoc]

theorem length_drawMany (count : Nat) (ns : NumberedNames) : (drawMany count ns).1.length = count := by
  induction count generalizing ns with
  | zero => rfl
  | succ count ih => simp [drawMany, ih]

end NumberedNames

end QueryCriteria
