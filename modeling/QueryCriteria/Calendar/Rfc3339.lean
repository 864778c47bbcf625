import QueryCriteria.Calendar.Timestamp

namespace QueryCriteria.Calendar.Rfc3339

open QueryCriteria.Decimal

def Writable (t : Timestamp) : Prop :=
  0 ≤ t.date.year ∧ t.offset.seconds % 60 = 0 ∧ t.offset.seconds.natAbs < 86400

instance (t : Timestamp) : Decidable (Writable t) :=
  inferInstanceAs (Decidable (_ ∧ _ ∧ _))

def trimZeros (cs : List Char) : List Char :=
  (cs.reverse.dropWhile (· == '0')).reverse

def fraction (nanosecond : Nat) : List Char :=
  if nanosecond = 0 then [] else '.' :: trimZeros (padded 9 nanosecond)

def offsetChars (o : Offset) : List Char :=
  if o.seconds = 0 then ['Z']
  else
    let minutes := o.seconds.natAbs / 60
    (if o.seconds < 0 then '-' else '+') :: padded 2 (minutes / 60) ++
      ':' :: padded 2 (minutes % 60)

def timeChars (t : TimeOfDay) : List Char :=
  padded 2 t.hour ++ ':' :: padded 2 t.minute ++ ':' :: padded 2 t.second ++
    fraction t.nanosecond

def write? (t : Timestamp) : Option String :=
  if Writable t then
    some (String.ofList (t.date.toChars ++ 'T' :: timeChars t.time ++ offsetChars t.offset))
  else none

def expect (c : Char) : List Char → Option (List Char)
  | d :: cs => if d = c then some cs else none
  | [] => none

def readFraction : List Char → Option (Nat × List Char)
  | '.' :: cs =>
      let (ds, rest) := takeDigits cs
      if ds.isEmpty then none
      else some (ofDigits (ds.take 9 ++ List.replicate (9 - ds.length) '0'), rest)
  | cs => some (0, cs)

def readOffset : List Char → Option (Offset × List Char)
  | [] => none
  | c :: cs =>
      if c = 'Z' ∨ c = 'z' then some (Offset.utc, cs)
      else if c = '+' ∨ c = '-' then do
        let (hour, cs) ← readFixed 2 cs
        let cs ← expect ':' cs
        let (minute, cs) ← readFixed 2 cs
        if hour < 24 ∧ minute < 60 then
          let seconds : Int := 3600 * hour + 60 * minute
          let offset ← Offset.ofSeconds? (if c = '-' then -seconds else seconds)
          some (offset, cs)
        else none
      else none

def readDate (cs : List Char) : Option (Date × List Char) := do
  let (year, cs) ← readFixed 4 cs
  let cs ← expect '-' cs
  let (month, cs) ← readFixed 2 cs
  let cs ← expect '-' cs
  let (day, cs) ← readFixed 2 cs
  let date ← Date.ofCalendar? year month day
  some (date, cs)

def readSeparator : List Char → Option (List Char)
  | c :: cs => if c.toNat < 128 then some cs else none
  | [] => none

def endsMonth (t : Timestamp) : Bool :=
  let second := 86400 * t.date.dayNumber + t.time.seconds - t.offset.seconds
  let endsDay := second % 86400 == 86399
  let shift := second / 86400 - t.date.dayNumber
  let (month, day) := t.date.monthDay
  let length := ((monthLengths t.date.year)[month - 1]?).getD 0
  endsDay && (if shift = 0 then day == length else if shift < 0 then day == 1 else
    day + 1 == length)

def read? (s : String) : Option Timestamp := do
  let (date, cs) ← readDate s.toList
  let cs ← readSeparator cs
  let (hour, cs) ← readFixed 2 cs
  let cs ← expect ':' cs
  let (minute, cs) ← readFixed 2 cs
  let cs ← expect ':' cs
  let (second, cs) ← readFixed 2 cs
  let (nanosecond, cs) ← readFraction cs
  let (offset, cs) ← readOffset cs
  if cs.isEmpty then
    if second = 60 then
      let time ← TimeOfDay.of? hour minute 59 999999999
      let t : Timestamp := ⟨date, time, offset⟩
      if endsMonth t then some t else none
    else
      let time ← TimeOfDay.of? hour minute second nanosecond
      some ⟨date, time, offset⟩
  else none

end QueryCriteria.Calendar.Rfc3339
