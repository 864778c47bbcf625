import Mathlib.Data.List.DropRight
import QueryCriteria.Calendar.Rfc3339
import QueryCriteria.Proofs.Scanning

namespace QueryCriteria.Calendar

open QueryCriteria.Decimal

section Months

theorem splitMonths_spec {lengths : List Nat} {day : Nat} (h : 1 ≤ day ∧ day ≤ totalDays lengths) :
    ∃ index length, (splitMonths lengths day).1 = index + 1 ∧ lengths[index]? = some length ∧
      1 ≤ (splitMonths lengths day).2 ∧ (splitMonths lengths day).2 ≤ length ∧
      totalDays (lengths.take index) + (splitMonths lengths day).2 = day := by
  induction lengths generalizing day with
  | nil =>
      have hzero : totalDays [] = 0 := rfl
      omega
  | cons first lengths ih =>
      have hsum : ∀ rest, totalDays (first :: rest) = first + totalDays rest := fun _ => rfl
      rw [hsum] at h
      by_cases hfirst : day ≤ first
      · refine ⟨0, first, ?_⟩
        simp [splitMonths, hfirst, h.1, totalDays]
      · have hlater : 1 ≤ day - first ∧ day - first ≤ totalDays lengths := by omega
        obtain ⟨index, length, hmonth, hlength, hpos, hle, hday⟩ := ih hlater
        refine ⟨index + 1, length, ?_⟩
        simp only [splitMonths, if_neg hfirst, List.getElem?_cons_succ, List.take_succ_cons, hsum]
        exact ⟨by omega, hlength, hpos, hle, by omega⟩

theorem length_monthLengths (year : Int) : (monthLengths year).length = 12 := rfl

theorem le_of_mem_monthLengths {year : Int} {length : Nat} (h : length ∈ monthLengths year) : length ≤ 31 := by
  cases hleap : isLeap year <;> simp [monthLengths, hleap] at h <;> omega

end Months

namespace Date

variable {d : Date}

theorem ofCalendar?_monthDay (d : Date) :
    1 ≤ d.monthDay.1 ∧ d.monthDay.1 ≤ 12 ∧ d.monthDay.2 ≤ 31 ∧
      ofCalendar? d.year d.monthDay.1 d.monthDay.2 = some d := by
  obtain ⟨hpos, hle⟩ := d.ordinal_range
  rw [← totalDays_monthLengths] at hle
  obtain ⟨index, length, hmonth, hlength, hday, hdayLe, hordinal⟩ := splitMonths_spec ⟨hpos, hle⟩
  obtain ⟨hindex, hmem⟩ := List.getElem?_eq_some_iff.mp hlength
  rw [length_monthLengths] at hindex
  have hshort : length ≤ 31 := le_of_mem_monthLengths (hmem ▸ List.getElem_mem _)
  refine ⟨?_, ?_, ?_, ?_⟩
  · rw [monthDay, hmonth]
    omega
  · rw [monthDay, hmonth]
    omega
  · rw [monthDay]
    omega
  · rw [monthDay, hmonth, ofCalendar?]
    simp only [hlength, if_pos (show _ ∧ _ from ⟨hday, hdayLe⟩), hordinal]
    exact ofOrdinal?_year_ordinal d

end Date

namespace Rfc3339

variable {rest : List Char}

theorem expect_self (c : Char) (cs : List Char) : expect c (c :: cs) = some cs := by
  simp [expect]

theorem readDate_toChars (d : Date) (h : 0 ≤ d.year) : readDate (d.toChars ++ rest) = some (d, rest) := by
  obtain ⟨-, hmonth, hday, hdate⟩ := d.ofCalendar?_monthDay
  have hyear : ((d.year.natAbs : Nat) : Int) = d.year := Int.natAbs_of_nonneg h
  have hrange := d.year_range
  have hchars : d.toChars ++ rest = padded 4 d.year.natAbs ++ '-' :: (padded 2 d.monthDay.1 ++
      '-' :: (padded 2 d.monthDay.2 ++ rest)) := by
    simp [Date.toChars, paddedInt, Int.not_lt.mpr h]
  rw [hchars, readDate, readFixed_padded (by decide) (by omega)]
  simp only [Option.bind_eq_bind, Option.bind_some, expect_self]
  rw [readFixed_padded (by decide) (by omega)]
  simp only [Option.bind_some, expect_self]
  rw [readFixed_padded (by decide) (by omega)]
  simp only [Option.bind_some, hyear, hdate]

theorem exists_trimZeros (cs : List Char) : ∃ count, cs = trimZeros cs ++ List.replicate count '0' := by
  have hzeros : cs.rtakeWhile (· == '0') = List.replicate (cs.rtakeWhile (· == '0')).length '0' := by
    refine List.eq_replicate_of_mem fun c hc => ?_
    simpa using List.mem_rtakeWhile_imp hc
  refine ⟨(cs.rtakeWhile (· == '0')).length, ?_⟩
  rw [← hzeros]
  exact List.rdropWhile_append_rtakeWhile.symm

def EndsTime (rest : List Char) : Prop :=
  ∀ c ∈ rest.head?, c.isDigit = false ∧ c ≠ '.'

theorem readFraction_fraction {nanosecond : Nat} (h : nanosecond < 1000000000) (hrest : EndsTime rest) :
    readFraction (fraction nanosecond ++ rest) = some (nanosecond, rest) := by
  rw [fraction]
  split
  · next hzero =>
    subst hzero
    rw [List.nil_append, readFraction]
    rintro cs rfl
    exact (hrest '.' rfl).2 rfl
  · next hne =>
    have hlength : (padded 9 nanosecond).length = 9 := length_padded 9 nanosecond (length_digits_le (by decide) h)
    have hvalue : ofDigits (padded 9 nanosecond) = nanosecond := ofDigits_padded 9 nanosecond
    have hall : ∀ c ∈ padded 9 nanosecond, c.isDigit = true := fun _ => isDigit_of_mem_padded
    obtain ⟨count, hsplit⟩ := exists_trimZeros (padded 9 nanosecond)
    generalize trimZeros (padded 9 nanosecond) = ds at hsplit ⊢
    rw [hsplit] at hlength hvalue hall
    have hdigits : ∀ c ∈ ds, c.isDigit = true := fun c hc => hall c (List.mem_append_left _ hc)
    rw [List.length_append, List.length_replicate] at hlength
    have hnonempty : ds.isEmpty = false := by
      rw [List.isEmpty_eq_false_iff]
      rintro rfl
      have hzeros : ofDigits (List.replicate count '0' ++ []) = ofDigits [] := ofDigits_zeros count []
      rw [List.append_nil] at hzeros
      exact hne (hvalue.symm.trans hzeros)
    have htake : takeDigits (ds ++ rest) = (ds, rest) := Prod.ext
      (takeWhile_append_of_stop hdigits fun c hc => (hrest c hc).1)
      (dropWhile_append_of_stop hdigits fun c hc => (hrest c hc).1)
    have hcount : 9 - ds.length = count := by omega
    rw [List.cons_append, readFraction, htake]
    simp only [hnonempty, List.take_of_length_le (show ds.length ≤ 9 by omega), hcount, hvalue]
    rfl

theorem Offset.eq_utc {o : Offset} (h : o.seconds = 0) : o = Offset.utc := by
  cases o
  cases h
  rfl

theorem readOffset_offsetChars {o : Offset} (hminutes : o.seconds % 60 = 0) (hday : o.seconds.natAbs < 86400) :
    readOffset (offsetChars o) = some (o, []) := by
  rw [offsetChars]
  split
  · next hzero =>
    rw [Offset.eq_utc hzero]
    rfl
  · next hne =>
    have hhour : o.seconds.natAbs / 60 / 60 < 24 := by omega
    have hminute : o.seconds.natAbs / 60 % 60 < 60 := by omega
    have hrange := o.range
    have hofSeconds : Offset.ofSeconds? o.seconds = some o := by rw [Offset.ofSeconds?, dif_pos hrange]
    have habs : (3600 * (o.seconds.natAbs / 60 / 60 : Nat) + 60 * (o.seconds.natAbs / 60 % 60 : Nat) : Int) =
        o.seconds.natAbs := by omega
    have hread : ∀ sign, sign = '+' ∨ sign = '-' →
        readOffset (sign :: padded 2 (o.seconds.natAbs / 60 / 60) ++ ':' :: padded 2 (o.seconds.natAbs / 60 % 60)) =
          (Offset.ofSeconds? (if sign = '-' then -o.seconds.natAbs else o.seconds.natAbs)).map (·, []) := by
      intro sign hsign
      have hzone : ¬ (sign = 'Z' ∨ sign = 'z') := by
        rcases hsign with rfl | rfl <;> decide
      have hplain : readFixed 2 (padded 2 (o.seconds.natAbs / 60 % 60)) = some (o.seconds.natAbs / 60 % 60, []) := by
        rw [← List.append_nil (padded 2 (o.seconds.natAbs / 60 % 60))]
        exact readFixed_padded (by decide) (by omega)
      rw [List.cons_append, readOffset, if_neg hzone, if_pos hsign, readFixed_padded (by decide) (by omega)]
      simp only [Option.bind_eq_bind, Option.bind_some, expect_self, hplain, if_pos (And.intro hhour hminute), habs]
      cases Offset.ofSeconds? (if sign = '-' then -o.seconds.natAbs else o.seconds.natAbs) <;> rfl
    split
    · next hnegative =>
      have hseconds : -((o.seconds.natAbs : Nat) : Int) = o.seconds := by omega
      rw [hread '-' (.inr rfl), if_pos rfl, hseconds, hofSeconds]
      rfl
    · next hpositive =>
      have hseconds : ((o.seconds.natAbs : Nat) : Int) = o.seconds := by omega
      rw [hread '+' (.inl rfl), if_neg (by decide), hseconds, hofSeconds]
      rfl

theorem endsTime_offsetChars (o : Offset) : EndsTime (offsetChars o) := by
  rw [offsetChars]
  split
  · rintro c ⟨⟩
    decide
  · split
    · rintro c ⟨⟩
      decide
    · rintro c ⟨⟩
      decide

theorem timeOfDay_of? (t : TimeOfDay) : TimeOfDay.of? t.hour t.minute t.second t.nanosecond = some t := by
  rw [TimeOfDay.of?, dif_pos ⟨t.hour_lt, t.minute_lt, t.second_lt, t.nanosecond_lt⟩]

theorem read?_write? {t : Timestamp} {s : String} (h : write? t = some s) : read? s = some t := by
  rw [write?] at h
  split at h
  · next hwritable =>
    obtain ⟨hyear, hminutes, hday⟩ := hwritable
    obtain rfl := Option.some.inj h
    have hhour := t.time.hour_lt
    have hminute := t.time.minute_lt
    have hsecond := t.time.second_lt
    have hleap : ¬ t.time.second = 60 := by omega
    have hseparator : ∀ cs, readSeparator ('T' :: cs) = some cs := fun _ => rfl
    have hchars : timeChars t.time ++ offsetChars t.offset = padded 2 t.time.hour ++ ':' :: (padded 2 t.time.minute ++
        ':' :: (padded 2 t.time.second ++ (fraction t.time.nanosecond ++ offsetChars t.offset))) := by
      simp [timeChars]
    rw [read?, String.toList_ofList, List.append_assoc, readDate_toChars t.date hyear]
    simp only [Option.bind_eq_bind, Option.bind_some, List.cons_append, hseparator, hchars]
    rw [readFixed_padded (by decide) (by omega)]
    simp only [Option.bind_some, expect_self]
    rw [readFixed_padded (by decide) (by omega)]
    simp only [Option.bind_some, expect_self]
    rw [readFixed_padded (by decide) (by omega)]
    simp only [Option.bind_some, readFraction_fraction t.time.nanosecond_lt (endsTime_offsetChars t.offset),
      readOffset_offsetChars hminutes hday, if_neg hleap, timeOfDay_of?]
    rfl
  · cases h

end Rfc3339

end QueryCriteria.Calendar
