namespace QueryCriteria.Decimal

def digits (n : Nat) : List Char :=
  Nat.toDigits 10 n

def padded (width n : Nat) : List Char :=
  List.replicate (width - (digits n).length) '0' ++ digits n

def paddedInt (width : Nat) (n : Int) : List Char :=
  if n < 0 then '-' :: padded width n.natAbs else padded width n.natAbs

def ofDigits (cs : List Char) : Nat :=
  cs.foldl (fun n c => 10 * n + (c.toNat - 48)) 0

def takeDigits (cs : List Char) : List Char × List Char :=
  (cs.takeWhile Char.isDigit, cs.dropWhile Char.isDigit)

def readFixed (width : Nat) (cs : List Char) : Option (Nat × List Char) :=
  let field := cs.take width
  if field.length = width ∧ field.all Char.isDigit then
    some (ofDigits field, cs.drop width)
  else none

theorem length_padded (width n : Nat) (h : (digits n).length ≤ width) :
    (padded width n).length = width := by
  simp only [padded, List.length_append, List.length_replicate]
  omega

theorem isDigit_of_mem_padded {width n : Nat} {c : Char} (h : c ∈ padded width n) :
    c.isDigit = true := by
  simp only [padded, List.mem_append, List.mem_replicate] at h
  rcases h with ⟨-, rfl⟩ | h
  · rfl
  · exact Nat.isDigit_of_mem_toDigits (by omega) (by omega) h

end QueryCriteria.Decimal
