import QueryCriteria.Json.Number
import QueryCriteria.Json.Text
import QueryCriteria.Proofs.Scanning

namespace QueryCriteria.Json

open QueryCriteria.Decimal

variable {c : Char} {cs rest : List Char} {fuel n : Nat}

section Text

theorem hexValue?_hexDigit (h : n < 16) : hexValue? (hexDigit n) = some n := by
  revert n
  decide

theorem hexDigit_plain (h : n < 16) : 32 ≤ (hexDigit n).toNat ∧ hexDigit n ≠ '"' ∧ hexDigit n ≠ '\\' := by
  revert n
  decide

theorem escapeChar_cases (c : Char) :
    (∃ e, e ≠ 'u' ∧ shortEscape? e = some c ∧ escapeChar c = ['\\', e]) ∨
      (c.toNat < 32 ∧
        escapeChar c = ['\\', 'u', '0', '0', hexDigit (c.toNat / 16), hexDigit (c.toNat % 16)]) ∨
      (32 ≤ c.toNat ∧ c ≠ '"' ∧ c ≠ '\\' ∧ escapeChar c = [c]) := by
  unfold escapeChar
  split
  · next h => exact .inl ⟨'"', by decide, by rw [h]; rfl, rfl⟩
  split
  · next h => exact .inl ⟨'\\', by decide, by rw [h]; rfl, rfl⟩
  split
  · next h => exact .inl ⟨'n', by decide, by rw [h]; rfl, rfl⟩
  split
  · next h => exact .inl ⟨'r', by decide, by rw [h]; rfl, rfl⟩
  split
  · next h => exact .inl ⟨'t', by decide, by rw [h]; rfl, rfl⟩
  split
  · next h => exact .inl ⟨'b', by decide, by rw [← Char.ofNat_toNat c, h]; rfl, rfl⟩
  split
  · next h => exact .inl ⟨'f', by decide, by rw [← Char.ofNat_toNat c, h]; rfl, rfl⟩
  split
  · next h => exact .inr (.inl ⟨h, rfl⟩)
  · next hquote hbackslash _ _ _ _ _ hcontrol =>
    exact .inr (.inr ⟨Nat.le_of_not_lt hcontrol, hquote, hbackslash, rfl⟩)

theorem noRawControls_plain (hcontrol : 32 ≤ c.toNat) (hquote : c ≠ '"') (hbackslash : c ≠ '\\') :
    noRawControls (c :: cs) = noRawControls cs := by
  rw [noRawControls]
  · simp [hcontrol]
  · simpa using hquote
  · intro d ds heq
    exact absurd heq hbackslash

theorem noRawControls_escapeChar (c : Char) : noRawControls (escapeChar c ++ rest) = noRawControls rest := by
  rcases escapeChar_cases c with ⟨e, -, -, heq⟩ | ⟨hcontrol, heq⟩ | ⟨hcontrol, hquote, hbackslash, heq⟩
  · rw [heq]
    rfl
  · obtain ⟨hhigh, hhighQuote, hhighBackslash⟩ := hexDigit_plain (show c.toNat / 16 < 16 by omega)
    obtain ⟨hlow, hlowQuote, hlowBackslash⟩ := hexDigit_plain (show c.toNat % 16 < 16 by omega)
    have hcode : noRawControls (escapeChar c ++ rest) =
        noRawControls ('0' :: '0' :: hexDigit (c.toNat / 16) :: hexDigit (c.toNat % 16) :: rest) := by
      rw [heq]
      rfl
    rw [hcode, noRawControls_plain (by decide) (by decide) (by decide),
      noRawControls_plain (by decide) (by decide) (by decide),
      noRawControls_plain hhigh hhighQuote hhighBackslash, noRawControls_plain hlow hlowQuote hlowBackslash]
  · rw [heq]
    exact noRawControls_plain hcontrol hquote hbackslash

theorem noRawControls_flatMap (t : List Char) : noRawControls (t.flatMap escapeChar ++ '"' :: rest) = true := by
  induction t with
  | nil => rfl
  | cons c t ih => rw [List.flatMap_cons, List.append_assoc, noRawControls_escapeChar, ih]

theorem readHex4_code (h : n < 256) :
    readHex4 ('0' :: '0' :: hexDigit (n / 16) :: hexDigit (n % 16) :: rest) = some (n, rest) := by
  have hzero : hexValue? '0' = some 0 := rfl
  have hhigh := hexValue?_hexDigit (show n / 16 < 16 by omega)
  have hlow := hexValue?_hexDigit (show n % 16 < 16 by omega)
  have hvalue : 4096 * 0 + 256 * 0 + 16 * (n / 16) + n % 16 = n := by omega
  simp only [readHex4, hzero, hhigh, hlow, hvalue]

theorem readUnits_escapeChar (c : Char) : readUnits (fuel + 1) (escapeChar c ++ rest) =
    (readUnits fuel rest).map fun (us, r) => (.char c :: us, r) := by
  rcases escapeChar_cases c with ⟨e, hne, he, heq⟩ | ⟨hcontrol, heq⟩ | ⟨-, hquote, hbackslash, heq⟩
  · rw [heq]
    simp only [List.cons_append, List.nil_append]
    rw [readUnits, if_neg (by decide), if_pos rfl]
    · simp only [he]
    · exact hne
  · have hbyte : c.toNat < 256 := by omega
    have hhigh : isHighSurrogate c.toNat = false := by
      simp only [isHighSurrogate, Bool.and_eq_false_iff, decide_eq_false_iff_not]
      omega
    have hlow : isLowSurrogate c.toNat = false := by
      simp only [isLowSurrogate, Bool.and_eq_false_iff, decide_eq_false_iff_not]
      omega
    rw [heq]
    simp [readUnits, readHex4_code hbyte, hhigh, hlow, unitOfCode]
  · rw [heq]
    simp [readUnits, hquote, hbackslash]

theorem readUnits_flatMap (t : List Char) (h : t.length < fuel) :
    readUnits fuel (t.flatMap escapeChar ++ '"' :: rest) = some (t.map .char, rest) := by
  induction t generalizing fuel with
  | nil =>
      obtain ⟨fuel, rfl⟩ := Nat.exists_eq_succ_of_ne_zero (Nat.ne_of_gt h)
      simp [readUnits]
  | cons c t ih =>
      obtain ⟨fuel, rfl⟩ := Nat.exists_eq_succ_of_ne_zero (Nat.ne_of_gt (Nat.zero_lt_of_lt h))
      rw [List.flatMap_cons, List.append_assoc, readUnits_escapeChar, ih (Nat.lt_of_succ_lt_succ h)]
      rfl

theorem charsOfUnits_map (t : List Char) : charsOfUnits (t.map .char) = some t := by
  induction t with
  | nil => rfl
  | cons c t ih => rw [List.map_cons, charsOfUnits, ih, Option.map_some]

theorem toList_quote (s : String) : (quote s).toList = '"' :: (s.toList.flatMap escapeChar ++ ['"']) := by
  simp [quote]

theorem readText_quote (s : String) : readText ((quote s).toList ++ rest) = some (s, rest) := by
  have hne : ∀ c, escapeChar c ≠ [] := by
    intro c
    rcases escapeChar_cases c with ⟨e, -, -, heq⟩ | ⟨-, heq⟩ | ⟨-, -, -, heq⟩ <;> simp [heq]
  have hlength : s.toList.length < (s.toList.flatMap escapeChar ++ '"' :: rest).length + 1 := by
    have hle := length_le_length_flatMap hne s.toList
    rw [List.length_append]
    omega
  rw [toList_quote, List.cons_append, List.append_assoc, List.singleton_append, readText,
    if_pos (noRawControls_flatMap s.toList), readUnits_flatMap s.toList hlength]
  simp only [charsOfUnits_map, Option.map_some, String.ofList_toList]

end Text

section Number

def EndsNumber (rest : List Char) : Prop :=
  ∀ c ∈ rest.head?, c.isDigit = false ∧ c ≠ '.' ∧ c ≠ 'e' ∧ c ≠ 'E'

theorem fitDigits_of_lt {acc : Nat} {ds : List Char}
    (h : ds.foldl (fun n c => 10 * n + (c.toNat - 48)) acc < UInt64.size) :
    fitDigits acc ds = (ds.foldl (fun n c => 10 * n + (c.toNat - 48)) acc, 0) := by
  have hle : ∀ (ds : List Char) (acc : Nat), acc ≤ ds.foldl (fun n c => 10 * n + (c.toNat - 48)) acc := by
    intro ds
    induction ds with
    | nil => exact fun acc => Nat.le_refl acc
    | cons c ds ih => exact fun acc => Nat.le_trans (show acc ≤ 10 * acc + (c.toNat - 48) by omega) (ih _)
  induction ds generalizing acc with
  | nil => rfl
  | cons c ds ih =>
      rw [List.foldl_cons] at h ⊢
      rw [fitDigits, if_pos (Nat.lt_of_le_of_lt (hle ds _) h)]
      exact ih h

theorem fitDigits_digits (h : n < UInt64.size) : fitDigits 0 (digits n) = (n, 0) := by
  have hvalue : (digits n).foldl (fun n c => 10 * n + (c.toNat - 48)) 0 = n := ofDigits_digits n
  rw [fitDigits_of_lt (by rwa [hvalue]), hvalue]

theorem eq_zero_of_head_digits (h : (digits n).head? = some '0') : n = 0 := by
  induction n using Nat.strongRecOn with
  | ind n ih =>
      rw [digits, Nat.toDigits_eq_if (by decide)] at h
      split at h
      · next hlt =>
        have hzero : ∀ n < 10, n.digitChar = '0' → n = 0 := by decide
        exact hzero n hlt (Option.some.inj h)
      · next hge =>
        rw [List.head?_append_of_ne_nil _ Nat.toDigits_ne_nil] at h
        have hdiv := ih (n / 10) (by omega) h
        omega

theorem no_leading_zero (n : Nat) : ((digits n).length > 1 && (digits n).head? == some '0') = false := by
  rw [Bool.eq_false_iff]
  intro h
  simp only [Bool.and_eq_true, decide_eq_true_eq, beq_iff_eq] at h
  obtain ⟨hlength, hhead⟩ := h
  obtain rfl := eq_zero_of_head_digits hhead
  exact absurd hlength (by decide)

theorem readDigits_digits (negative : Bool) (h : n < UInt64.size) (hrest : EndsNumber rest) :
    readDigits negative (digits n ++ rest) =
      if !negative then some (.whole n, rest)
      else if n = 0 ∨ UInt64.size < 2 * n then some (.float (-(UInt64.ofNat n).toFloat), rest)
      else some (.negative n, rest) := by
  have htake := takeDigits_digits n fun c hc => (hrest c hc).1
  have hempty : (digits n).isEmpty = false := by simpa using digits_ne_nil n
  have hstarts : startsExponent rest = false := by
    cases rest with
    | nil => rfl
    | cons c rest =>
        obtain ⟨-, -, he, hE⟩ := hrest c rfl
        simp [startsExponent, he, hE]
  rw [readDigits, htake]
  simp only [hempty, no_leading_zero, fitDigits_digits h, Bool.or_self, Bool.false_eq_true, if_false]
  split
  · next r => exact absurd rfl (hrest '.' rfl).2.1
  · simp only [hstarts]
    rfl

theorem readNumber_whole (h : n < UInt64.size) (hrest : EndsNumber rest) :
    readNumber (digits n ++ rest) = some (.whole n, rest) := by
  have hread : readNumber (digits n ++ rest) = readDigits false (digits n ++ rest) := by
    obtain ⟨c, cs, hcs⟩ := List.exists_cons_of_ne_nil (digits_ne_nil n)
    have hc : c.isDigit = true := isDigit_of_mem_digits (hcs ▸ List.mem_cons_self)
    rw [hcs, List.cons_append, readNumber]
    intro rest heq
    obtain ⟨rfl, -⟩ := List.cons.inj heq
    exact absurd hc (by decide)
  rw [hread, readDigits_digits false h hrest]
  rfl

theorem readNumber_negative (hpos : 0 < n) (h : 2 * n ≤ UInt64.size) (hrest : EndsNumber rest) :
    readNumber ('-' :: digits n ++ rest) = some (.negative n, rest) := by
  have hsize : UInt64.size = 18446744073709551616 := rfl
  have hzero : ¬ (n = 0 ∨ UInt64.size < 2 * n) := by omega
  rw [List.cons_append, readNumber, readDigits_digits true (by omega) hrest, if_neg hzero]
  rfl

end Number

end QueryCriteria.Json
