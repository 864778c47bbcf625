import QueryCriteria.Decimal.Digits

namespace QueryCriteria.Calendar

def isLeap (year : Int) : Bool :=
  year % 4 == 0 && (year % 100 != 0 || year % 400 == 0)

def daysInYear (year : Int) : Nat :=
  if isLeap year then 366 else 365

def monthLengths (year : Int) : List Nat :=
  [31, if isLeap year then 29 else 28, 31, 30, 31, 30, 31, 31, 30, 31, 30, 31]

def totalDays (lengths : List Nat) : Nat :=
  lengths.foldr Nat.add 0

theorem totalDays_monthLengths (year : Int) : totalDays (monthLengths year) = daysInYear year := by
  cases h : isLeap year <;> simp [totalDays, monthLengths, daysInYear, h]

structure Date where
  year : Int
  ordinal : Nat
  year_range : -9999 ≤ year ∧ year ≤ 9999
  ordinal_range : 1 ≤ ordinal ∧ ordinal ≤ daysInYear year
deriving DecidableEq

def Date.ofOrdinal? (year : Int) (ordinal : Nat) : Option Date :=
  if hy : -9999 ≤ year ∧ year ≤ 9999 then
    if ho : 1 ≤ ordinal ∧ ordinal ≤ daysInYear year then some ⟨year, ordinal, hy, ho⟩ else none
  else none

theorem Date.ofOrdinal?_year_ordinal (d : Date) : Date.ofOrdinal? d.year d.ordinal = some d := by
  simp [ofOrdinal?, d.year_range, d.ordinal_range]

def Date.ofCalendar? (year : Int) (month day : Nat) : Option Date :=
  match month with
  | 0 => none
  | m + 1 =>
      match (monthLengths year)[m]? with
      | none => none
      | some length =>
          if 1 ≤ day ∧ day ≤ length then
            Date.ofOrdinal? year (totalDays ((monthLengths year).take m) + day)
          else none

def splitMonths : List Nat → Nat → Nat × Nat
  | [], day => (1, day)
  | length :: rest, day =>
      if day ≤ length then (1, day)
      else
        let (month, d) := splitMonths rest (day - length)
        (month + 1, d)

def Date.monthDay (d : Date) : Nat × Nat :=
  splitMonths (monthLengths d.year) d.ordinal

def Date.dayNumber (d : Date) : Int :=
  let y := d.year - 1
  365 * y + y / 4 - y / 100 + y / 400 + d.ordinal

def Date.toChars (d : Date) : List Char :=
  let (month, day) := d.monthDay
  Decimal.paddedInt 4 d.year ++ '-' :: Decimal.padded 2 month ++ '-' :: Decimal.padded 2 day

def Date.toText (d : Date) : String :=
  String.ofList d.toChars

end QueryCriteria.Calendar
