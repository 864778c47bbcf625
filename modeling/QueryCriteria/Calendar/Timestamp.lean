import QueryCriteria.Calendar.Date

namespace QueryCriteria.Calendar

structure TimeOfDay where
  hour : Nat
  minute : Nat
  second : Nat
  nanosecond : Nat
  hour_lt : hour < 24
  minute_lt : minute < 60
  second_lt : second < 60
  nanosecond_lt : nanosecond < 1000000000
deriving DecidableEq

def TimeOfDay.of? (hour minute second nanosecond : Nat) : Option TimeOfDay :=
  if h : hour < 24 ∧ minute < 60 ∧ second < 60 ∧ nanosecond < 1000000000 then
    some ⟨hour, minute, second, nanosecond, h.1, h.2.1, h.2.2.1, h.2.2.2⟩
  else none

def TimeOfDay.seconds (t : TimeOfDay) : Nat :=
  3600 * t.hour + 60 * t.minute + t.second

structure Offset where
  seconds : Int
  range : seconds.natAbs ≤ 93599
deriving DecidableEq

def Offset.utc : Offset := ⟨0, by decide⟩

def Offset.ofSeconds? (seconds : Int) : Option Offset :=
  if h : seconds.natAbs ≤ 93599 then some ⟨seconds, h⟩ else none

structure Timestamp where
  date : Date
  time : TimeOfDay
  offset : Offset
deriving DecidableEq

def Timestamp.instant (t : Timestamp) : Int :=
  (86400 * t.date.dayNumber + t.time.seconds - t.offset.seconds) * 1000000000 + t.time.nanosecond

end QueryCriteria.Calendar
