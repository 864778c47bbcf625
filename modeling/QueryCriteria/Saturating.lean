namespace QueryCriteria.Saturating

def greatest : UInt64 := UInt64.ofNat (UInt64.size - 1)

def clamp (n : Nat) : UInt64 :=
  if n < UInt64.size then UInt64.ofNat n else greatest

def add (a b : UInt64) : UInt64 :=
  clamp (a.toNat + b.toNat)

def sub (a b : UInt64) : UInt64 :=
  clamp (a.toNat - b.toNat)

def mul (a b : UInt64) : UInt64 :=
  clamp (a.toNat * b.toNat)

theorem toNat_clamp (n : Nat) : (clamp n).toNat = min n (UInt64.size - 1) := by
  unfold clamp
  split
  · rw [UInt64.toNat_ofNat_of_lt' ‹_›]
    omega
  · simp only [greatest, UInt64.size] at *
    rw [UInt64.toNat_ofNat_of_lt' (by decide)]
    omega

theorem toNat_add (a b : UInt64) : (add a b).toNat = min (a.toNat + b.toNat) (UInt64.size - 1) :=
  toNat_clamp _

theorem toNat_sub (a b : UInt64) : (sub a b).toNat = a.toNat - b.toNat := by
  have := a.toNat_lt
  rw [sub, toNat_clamp]
  simp only [UInt64.size]
  omega

theorem toNat_mul (a b : UInt64) : (mul a b).toNat = min (a.toNat * b.toNat) (UInt64.size - 1) :=
  toNat_clamp _

end QueryCriteria.Saturating
