import Mathlib.Data.List.Forall2
import QueryCriteria.Proofs.Instants
import QueryCriteria.Proofs.JsonTokens
import QueryCriteria.Proofs.Ulids
import QueryCriteria.Value.JsonReader

namespace QueryCriteria.Value

open QueryCriteria.Calendar QueryCriteria.Decimal QueryCriteria.Json

variable {rest : List Char}

def Ends (rest : List Char) : Prop :=
  ∀ c ∈ rest.head?, c = ',' ∨ c = ']' ∨ c = '}'

theorem Ends.endsNumber (h : Ends rest) : EndsNumber rest := by
  intro c hc
  rcases h c hc with rfl | rfl | rfl <;> decide

theorem ends_nil : Ends [] := by
  rintro c ⟨⟩

theorem ends_comma : Ends (',' :: rest) := by
  rintro c ⟨⟩
  decide

theorem ends_bracket : Ends (']' :: rest) := by
  rintro c ⟨⟩
  decide

theorem ends_brace : Ends ('}' :: rest) := by
  rintro c ⟨⟩
  decide

section Tokens

theorem skipSpace_cons {c : Char} (h : isSpace c = false) (cs : List Char) : skipSpace (c :: cs) = c :: cs := by
  simp [skipSpace, h]

theorem token_self {c : Char} (h : isSpace c = false) (cs : List Char) : token c (c :: cs) = some cs := by
  simp [token, skipSpace_cons h]

theorem token_of_ne {c d : Char} (h : isSpace d = false) (hne : d ≠ c) (cs : List Char) :
    token c (d :: cs) = none := by
  simp [token, skipSpace_cons h, hne]

theorem skipSpace_quoted (s : String) : skipSpace (quoted s ++ rest) = quoted s ++ rest := by
  rw [quoted, toList_quote]
  exact skipSpace_cons (by decide) _

theorem readString_quoted (s : String) : readString (quoted s ++ rest) = some (s, rest) := by
  rw [readString, skipSpace_quoted, quoted]
  exact readText_quote s

theorem readParsed_quoted {α : Type} {parse : String → Option α} {s : String} {a : α} (h : parse s = some a) :
    readParsed parse (quoted s ++ rest) = some (a, rest) := by
  rw [readParsed, readString_quoted]
  simp [h]

theorem exists_intChars (n : Int) : ∃ c cs, intChars n = c :: cs ∧ isSpace c = false ∧ c ≠ ']' := by
  rw [intChars]
  split
  · exact ⟨'-', _, rfl, by decide, by decide⟩
  · obtain ⟨c, cs, hcs⟩ := List.exists_cons_of_ne_nil (digits_ne_nil n.natAbs)
    have hc : c.isDigit = true := isDigit_of_mem_digits (hcs ▸ List.mem_cons_self)
    refine ⟨c, cs, hcs, ?_, ?_⟩
    · simp only [isSpace, Bool.or_eq_false_iff, beq_eq_false_iff_ne]
      refine ⟨⟨⟨?_, ?_⟩, ?_⟩, ?_⟩ <;> (rintro rfl; exact absurd hc (by decide))
    · rintro rfl
      exact absurd hc (by decide)

theorem intChars_natCast (n : Nat) : intChars n = digits n := by
  rw [intChars, if_neg (Int.not_lt.mpr (Int.natCast_nonneg n)), Int.natAbs_natCast]

theorem readInt_intChars {n : Int} (hleast : -9223372036854775808 ≤ n) (hgreatest : n ≤ 18446744073709551615)
    (hrest : Ends rest) : readInt (intChars n ++ rest) = some (n, rest) := by
  have hsize : UInt64.size = 18446744073709551616 := rfl
  obtain ⟨c, cs, hcs, hspace, -⟩ := exists_intChars n
  have hhead : skipSpace (intChars n ++ rest) = intChars n ++ rest := by
    rw [hcs]
    exact skipSpace_cons hspace _
  rw [readInt, hhead, intChars]
  split
  · next hnegative =>
    rw [readNumber_negative (by omega) (by omega) hrest.endsNumber]
    have hn : -((n.natAbs : Nat) : Int) = n := by omega
    simp only [Option.bind_eq_bind, Option.bind_some, hn]
  · next hpositive =>
    rw [readNumber_whole (by omega) hrest.endsNumber]
    have hn : ((n.natAbs : Nat) : Int) = n := by omega
    simp only [Option.bind_eq_bind, Option.bind_some, hn]

theorem readIntWithin_intChars {least greatest n : Int} (hleast : -9223372036854775808 ≤ n)
    (hgreatest : n ≤ 18446744073709551615) (hrange : least ≤ n ∧ n ≤ greatest) (hrest : Ends rest) :
    readIntWithin least greatest (intChars n ++ rest) = some (n, rest) := by
  rw [readIntWithin, readInt_intChars hleast hgreatest hrest]
  simp [hrange]

end Tokens

section Arrays

variable {α : Type} {item : Reader α} {ok : α → Bool} {as : List α} {texts : List (List Char)} {fuel : Nat}

structure Reads (item : Reader α) (accepted : Bool) (a : α) (text : List Char) : Prop where
  head : ∃ c cs, text = c :: cs ∧ isSpace c = false ∧ c ≠ ']'
  read : ∀ rest, Ends rest → item (text ++ rest) = if accepted then some (a, rest) else none

theorem readItems_texts (h : List.Forall₂ (fun a text => Reads item (ok a) a text) as texts) (hne : as ≠ [])
    (hfuel : as.length ≤ fuel) : readItems item fuel ([','].intercalate texts ++ ']' :: rest) =
      if as.all ok then some (as, rest) else none := by
  induction h generalizing fuel with
  | nil => exact absurd rfl hne
  | @cons a text as texts hfirst htail ih =>
      obtain ⟨fuel, rfl⟩ := Nat.exists_eq_succ_of_ne_zero (Nat.ne_of_gt (Nat.zero_lt_of_lt hfuel))
      have hbracket : skipSpace (']' :: rest) = ']' :: rest := rfl
      cases htail with
      | nil =>
          rw [List.intercalate_singleton, readItems, hfirst.read _ ends_bracket]
          cases hok : ok a <;> simp [hok, hbracket]
      | @cons next nextText as texts hsecond htail =>
          have hitems := ih (List.cons_ne_nil _ _) (Nat.le_of_succ_le_succ hfuel)
          have hcomma : ∀ cs, skipSpace (',' :: cs) = ',' :: cs := fun _ => rfl
          rw [List.intercalate_cons_cons, List.append_assoc, List.append_assoc, List.singleton_append, readItems,
            hfirst.read _ ends_comma]
          cases hok : ok a
          · simp [hok]
          · have hall : (a :: next :: as).all ok = (next :: as).all ok := by rw [List.all_cons, hok, Bool.true_and]
            simp only [if_true, Option.bind_eq_bind, Option.bind_some, hcomma, hitems, hall]
            split <;> rfl

theorem length_le_length_intercalate (h : List.Forall₂ (fun a text => Reads item (ok a) a text) as texts) :
    as.length ≤ ([','].intercalate texts).length := by
  induction h with
  | nil => exact Nat.zero_le _
  | @cons a text as texts hfirst htail ih =>
      obtain ⟨c, cs, rfl, -⟩ := hfirst.head
      cases htail with
      | nil => simp [List.intercalate_singleton]
      | cons hsecond htail =>
          rw [List.intercalate_cons_cons]
          simp only [List.length_append, List.length_cons] at ih ⊢
          omega

theorem readArray_bracketed (h : List.Forall₂ (fun a text => Reads item (ok a) a text) as texts) :
    readArray item (bracketed texts ++ rest) = if as.all ok then some (as, rest) else none := by
  have hopen : bracketed texts ++ rest = '[' :: ([','].intercalate texts ++ ']' :: rest) := by simp [bracketed]
  rw [readArray, hopen, token_self (by decide)]
  cases h with
  | nil => rfl
  | @cons a text as texts hfirst htail =>
      have hitems : List.Forall₂ (fun a text => Reads item (ok a) a text) (a :: as) (text :: texts) :=
        .cons hfirst htail
      have hfuel : (a :: as).length ≤ ([','].intercalate (text :: texts) ++ ']' :: rest).length := by
        have hle := length_le_length_intercalate hitems
        rw [List.length_append]
        omega
      have hclosing : token ']' ([','].intercalate (text :: texts) ++ ']' :: rest) = none := by
        obtain ⟨c, cs, rfl, hspace, hne⟩ := hfirst.head
        cases texts with
        | nil => exact token_of_ne hspace hne _
        | cons next texts => exact token_of_ne hspace hne _
      simp only [Option.bind_eq_bind, Option.bind_some, hclosing]
      exact readItems_texts hitems (List.cons_ne_nil _ _) hfuel

end Arrays

section Contents

variable {deeper : Bool} {item : Reader Value}

theorem readContent_bool (b : Bool) : readContent deeper item Tag.bool.jsonName
    ((if b then "true".toList else "false".toList) ++ rest) = some (.bool b, rest) := by
  cases b <;> simp [readContent, Tag.jsonName, readBool, word, skipSpace, isSpace]

theorem readContent_int (n : Int64) (hrest : Ends rest) :
    readContent deeper item Tag.int.jsonName (intChars n.toInt ++ rest) = some (.int n, rest) := by
  have hleast := n.le_toInt
  have hgreatest := n.toInt_lt
  have hread : readIntWithin (-9223372036854775808) 9223372036854775807 (intChars n.toInt ++ rest) =
      some (n.toInt, rest) :=
    readIntWithin_intChars (by omega) (by omega) (by omega) hrest
  simp [readContent, Tag.jsonName, hread]

theorem readContent_uint (n : UInt64) (hrest : Ends rest) :
    readContent deeper item Tag.uint.jsonName (digits n.toNat ++ rest) = some (.uint n, rest) := by
  have hlt := n.toNat_lt
  have hread : readIntWithin 0 18446744073709551615 (digits n.toNat ++ rest) = some ((n.toNat : Int), rest) := by
    rw [← intChars_natCast]
    exact readIntWithin_intChars (by omega) (by omega) (by omega) hrest
  simp [readContent, Tag.jsonName, hread]

theorem readContent_text (s : String) :
    readContent deeper item Tag.text.jsonName (quoted s ++ rest) = some (.text s, rest) := by
  simp [readContent, Tag.jsonName, readString_quoted]

theorem readContent_timestamp {t : Timestamp} {s : String} (h : Rfc3339.write? t = some s) :
    readContent deeper item Tag.timestamp.jsonName (quoted s ++ rest) = some (.timestamp t, rest) := by
  simp [readContent, Tag.jsonName, readParsed_quoted (Rfc3339.read?_write? h)]

theorem readContent_ulid (u : Ulid) :
    readContent deeper item Tag.ulid.jsonName (quoted u.toText ++ rest) = some (.ulid u, rest) := by
  simp [readContent, Tag.jsonName, readParsed_quoted (Ulid.read?_toText u)]

theorem reads_byte (b : UInt8) : Reads readByte true b (digits b.toNat) where
  head := by
    rw [← intChars_natCast]
    exact exists_intChars b.toNat
  read := by
    intro rest hrest
    have hlt := b.toNat_lt
    have hread : readIntWithin 0 255 (digits b.toNat ++ rest) = some ((b.toNat : Int), rest) := by
      rw [← intChars_natCast]
      exact readIntWithin_intChars (by omega) (by omega) (by omega) hrest
    simp [readByte, hread]

theorem readContent_bytes (bs : List UInt8) :
    readContent deeper item Tag.bytes.jsonName (bracketed (bs.map fun b => digits b.toNat) ++ rest) =
      if deeper then some (.bytes bs, rest) else none := by
  have hitems : List.Forall₂ (fun b text => Reads readByte ((fun _ => true) b) b text) bs
      (bs.map fun b => digits b.toNat) :=
    List.forall₂_map_right_iff.mpr (List.forall₂_same.mpr fun b _ => reads_byte b)
  have hall : (bs.all fun _ => true) = true := by simp
  have hread : readArray readByte (bracketed (bs.map fun b => digits b.toNat) ++ rest) = some (bs, rest) := by
    rw [readArray_bracketed hitems, hall, if_pos rfl]
  have hbytes : readBytes deeper (bracketed (bs.map fun b => digits b.toNat) ++ rest) =
      if deeper then some (bs, rest) else none := by
    rw [← hread]
    rfl
  cases deeper <;> simp [readContent, Tag.jsonName, hbytes]

theorem readContent_date (d : Date) :
    readContent deeper item Tag.date.jsonName (bracketed [intChars d.year, digits d.ordinal] ++ rest) =
      if deeper then some (.date d, rest) else none := by
  have hyears := d.year_range
  have hordinals : d.ordinal ≤ 366 := Nat.le_trans d.ordinal_range.2 (by unfold daysInYear; split <;> decide)
  have hchars : bracketed [intChars d.year, digits d.ordinal] ++ rest =
      '[' :: (intChars d.year ++ ',' :: (intChars d.ordinal ++ ']' :: rest)) := by
    simp [bracketed, intChars_natCast]
  have hyear : ∀ rest, readIntWithin (-2147483648) 2147483647 (intChars d.year ++ ',' :: rest) =
      some (d.year, ',' :: rest) :=
    fun rest => readIntWithin_intChars (by omega) (by omega) (by omega) ends_comma
  have hordinal : readIntWithin 0 65535 (intChars d.ordinal ++ ']' :: rest) = some ((d.ordinal : Int), ']' :: rest) :=
    readIntWithin_intChars (by omega) (by omega) (by omega) ends_bracket
  have hread : readDate (bracketed [intChars d.year, digits d.ordinal] ++ rest) = some (d, rest) := by
    rw [readDate, hchars, token_self (by decide)]
    simp only [Option.bind_eq_bind, Option.bind_some, hyear, token_self (show isSpace ',' = false by decide),
      hordinal, token_self (show isSpace ']' = false by decide), Int.toNat_natCast, d.ofOrdinal?_year_ordinal]
  cases deeper <;> simp [readContent, Tag.jsonName, hread]

theorem member_tagged {t : Tag} {v : Value} {content : List Char} {accepted : Bool}
    (h : readContent deeper item t.jsonName (content ++ '}' :: rest) =
      if accepted then some (v, '}' :: rest) else none) :
    readValue.member deeper item (tagged t content ++ rest) = if accepted then some (v, rest) else none := by
  have hchars : tagged t content ++ rest = '{' :: (quoted t.jsonName ++ ':' :: (content ++ '}' :: rest)) := by
    simp [tagged]
  have hhead : ∀ cs, skipSpace ('{' :: cs) = '{' :: cs := fun _ => rfl
  rw [readValue.member, hchars]
  simp only [hhead, readString_quoted, Option.bind_eq_bind, Option.bind_some,
    token_self (show isSpace ':' = false by decide), h]
  cases accepted
  · rfl
  · simp only [if_true, Option.bind_some, token_self (show isSpace '}' = false by decide)]

end Contents

section Depths

mutual
def isFloatFree : Value → Bool
  | .float _ => false
  | .list items => allFloatFree items
  | _ => true

def allFloatFree : List Value → Bool
  | [] => true
  | v :: vs => isFloatFree v && allFloatFree vs
end

mutual
def brackets : Value → Nat
  | .null => 0
  | .bytes _ => 2
  | .date _ => 2
  | .list items => bracketsWithin items + 2
  | _ => 1

def bracketsWithin : List Value → Nat
  | [] => 0
  | v :: vs => max (brackets v) (bracketsWithin vs)
end

theorem all_brackets_le (vs : List Value) (depth : Nat) :
    (vs.all fun v => decide (v.brackets ≤ depth)) = decide (bracketsWithin vs ≤ depth) := by
  induction vs with
  | nil => simp [bracketsWithin]
  | cons v vs ih =>
      rw [List.all_cons, ih, bracketsWithin, ← Bool.decide_and]
      exact decide_eq_decide.mpr Nat.max_le.symm

def itemsWithin : Nat → Reader Value
  | 0 => fun _ => none
  | depth + 1 => readValue depth

theorem readValue_succ (depth : Nat) :
    readValue (depth + 1) = readValue.member (decide (1 ≤ depth)) (itemsWithin depth) := by
  cases depth <;> rfl

end Depths

section Values

variable {t : Tag} {v : Value} {content : List Char} {inner : Nat}

theorem reads_tagged (h : ∀ depth rest, readContent (decide (1 ≤ depth)) (itemsWithin depth) t.jsonName
      (content ++ '}' :: rest) = if decide (inner ≤ depth) then some (v, '}' :: rest) else none)
    (depth : Nat) : Reads (readValue depth) (decide (inner + 1 ≤ depth)) v (tagged t content) where
  head := ⟨'{', _, rfl, by decide, by decide⟩
  read := by
    intro rest _
    cases depth with
    | zero => rfl
    | succ depth =>
        rw [readValue_succ, member_tagged (h depth rest)]
        simp

theorem reads_plain (h : ∀ deeper item rest, readContent deeper item t.jsonName (content ++ '}' :: rest) =
      some (v, '}' :: rest)) (depth : Nat) : Reads (readValue depth) (decide (1 ≤ depth)) v (tagged t content) :=
  reads_tagged (fun depth rest => by rw [h]; simp) depth

theorem reads_null (depth : Nat) : Reads (readValue depth) (decide (0 ≤ depth)) .null (quoted Tag.null.jsonName) where
  head := by
    rw [quoted, toList_quote]
    exact ⟨'"', _, rfl, by decide, by decide⟩
  read := by
    intro rest _
    cases depth with
    | zero => simp [readValue, readString_quoted, Tag.jsonName]
    | succ depth =>
        rw [readValue_succ, readValue.member, skipSpace_quoted]
        split
        · next cs hcs =>
          rw [quoted, toList_quote] at hcs
          exact absurd (List.cons.inj hcs).1 (by decide)
        · rw [readString_quoted]
          rfl

theorem readContent_list {items : List Value} {texts : List (List Char)} {rest : List Char} (h : ∀ depth,
      List.Forall₂ (fun v text => Reads (readValue depth) (decide (v.brackets ≤ depth)) v text) items texts)
    (depth : Nat) : readContent (decide (1 ≤ depth)) (itemsWithin depth) Tag.list.jsonName (bracketed texts ++ rest) =
      if decide (bracketsWithin items + 1 ≤ depth) then some (.list items, rest) else none := by
  cases depth with
  | zero => simp [readContent, Tag.jsonName]
  | succ depth =>
      have hread : readArray (itemsWithin (depth + 1)) (bracketed texts ++ rest) =
          if decide (bracketsWithin items ≤ depth) then some (items, rest) else none := by
        rw [← all_brackets_le]
        exact readArray_bracketed (h depth)
      by_cases hle : bracketsWithin items ≤ depth <;> simp [readContent, Tag.jsonName, hread, hle]

mutual
theorem reads_jsonChars (v : Value) {text : List Char} (hfree : v.isFloatFree = true) (h : jsonChars? v = some text)
    (depth : Nat) : Reads (readValue depth) (decide (v.brackets ≤ depth)) v text := by
  cases v with
  | null =>
      obtain rfl := Option.some.inj h
      exact reads_null depth
  | bool b =>
      obtain rfl := Option.some.inj h
      exact reads_plain (fun _ _ _ => readContent_bool b) depth
  | int n =>
      obtain rfl := Option.some.inj h
      exact reads_plain (fun _ _ _ => readContent_int n ends_brace) depth
  | uint n =>
      obtain rfl := Option.some.inj h
      exact reads_plain (fun _ _ _ => readContent_uint n ends_brace) depth
  | float x => exact absurd hfree Bool.false_ne_true
  | text s =>
      obtain rfl := Option.some.inj h
      exact reads_plain (fun _ _ _ => readContent_text s) depth
  | bytes bs =>
      obtain rfl := Option.some.inj h
      exact reads_tagged (fun _ _ => readContent_bytes bs) depth
  | date d =>
      obtain rfl := Option.some.inj h
      exact reads_tagged (fun _ _ => readContent_date d) depth
  | timestamp t =>
      obtain ⟨s, hs, rfl⟩ := Option.map_eq_some_iff.mp h
      exact reads_plain (fun _ _ _ => readContent_timestamp hs) depth
  | ulid u =>
      obtain rfl := Option.some.inj h
      exact reads_plain (fun _ _ _ => readContent_ulid u) depth
  | list items =>
      obtain ⟨texts, htexts, rfl⟩ := Option.map_eq_some_iff.mp h
      exact reads_tagged (fun depth _ => readContent_list (reads_jsonItems items hfree htexts) depth) depth

theorem reads_jsonItems (vs : List Value) {texts : List (List Char)} (hfree : allFloatFree vs = true)
    (h : jsonItems? vs = some texts) (depth : Nat) :
    List.Forall₂ (fun v text => Reads (readValue depth) (decide (v.brackets ≤ depth)) v text) vs texts := by
  cases vs with
  | nil =>
      obtain rfl := Option.some.inj h
      exact .nil
  | cons v vs =>
      obtain ⟨hfirst, hrest⟩ := Bool.and_eq_true_iff.mp hfree
      rw [jsonItems?] at h
      split at h
      · next text texts htext htexts =>
        obtain rfl := Option.some.inj h
        exact .cons (reads_jsonChars v hfirst htext depth) (reads_jsonItems vs hrest htexts depth)
      · exact absurd h (Option.some_ne_none _).symm
end

theorem text_tells_value {s : String} (hfree : v.isFloatFree = true) (h : v.json? = some s) :
    (ofJson? s = if v.brackets ≤ maxDepth then some v else none) ∧
      ∀ w : Value, w.isFloatFree = true → w.json? = some s → w = v := by
  have hreads : ∀ {w : Value} (depth : Nat), w.isFloatFree = true → w.json? = some s →
      readValue depth s.toList = if w.brackets ≤ depth then some (w, []) else none := by
    intro w depth hwfree hw
    obtain ⟨text, htext, rfl⟩ := Option.map_eq_some_iff.mp hw
    have hread := (reads_jsonChars w hwfree htext depth).read [] ends_nil
    simpa using hread
  refine ⟨?_, fun w hwfree hw => ?_⟩
  · rw [ofJson?, hreads maxDepth hfree h]
    by_cases hle : v.brackets ≤ maxDepth
    · simp [hle, skipSpace]
    · simp [hle]
  · -- At a depth fit for both, one text is read as either.
    have hv := hreads (max v.brackets w.brackets) hfree h
    have hw := hreads (max v.brackets w.brackets) hwfree hw
    rw [if_pos (Nat.le_max_left _ _)] at hv
    rw [if_pos (Nat.le_max_right _ _)] at hw
    exact congrArg Prod.fst (Option.some.inj (hw.symm.trans hv))

def departures : Value :=
  .list [.null, .int (-9223372036854775808), .bytes [0, 255],
    .timestamp ⟨⟨2024, 60, by decide, by decide⟩,
      ⟨8, 30, 15, 500000000, by decide, by decide, by decide, by decide⟩, ⟨7200, by decide⟩⟩,
    .list [.text "gate \"B\""]]

def departuresText : String :=
  "\x7b\"List\":[\"Null\",\x7b\"Int\":-9223372036854775808\x7d,\x7b\"Bytes\":[0,255]\x7d," ++
    "\x7b\"Timestamp\":\"2024-02-29T08:30:15.5+02:00\"\x7d," ++
    "\x7b\"List\":[\x7b\"Text\":\"gate \\\"B\\\"\"\x7d]\x7d]\x7d"

theorem departures_told : departures.isFloatFree = true ∧ departures.json? = some departuresText ∧
    ofJson? departuresText = some departures ∧
      ∀ w : Value, w.isFloatFree = true → w.json? = some departuresText → w = departures := by
  have hwritten : departures.json? = some departuresText := by decide +kernel
  obtain ⟨hread, honly⟩ := text_tells_value (show departures.isFloatFree = true from rfl) hwritten
  rw [if_pos (by decide)] at hread
  exact ⟨rfl, hwritten, hread, honly⟩

end Values

end QueryCriteria.Value
