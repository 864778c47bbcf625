import Mathlib.Data.List.Chain
import QueryCriteria.Proofs.Conditions
import QueryCriteria.Proofs.TemplateSpelling

namespace QueryCriteria.Template

open QueryCriteria.Decimal QueryCriteria.Text

section Segments

variable {segments : List Segment} {ls : List Lexeme}

def Segment.isText : Segment → Bool
  | .text _ => true
  | .token _ => false

def Segment.lexemes : Segment → List Lexeme
  | .text s => s.toList.map .literal
  | .token t => [.token t]

structure Normal (segments : List Segment) : Prop where
  nonempty : .text "" ∉ segments
  apart : segments.IsChain fun a b => ¬ (a.isText = true ∧ b.isText = true)

theorem gather_literal (c : Char) (ls : List Lexeme) :
    (∃ s rest, gather ls = .text s :: rest ∧
        gather (.literal c :: ls) = .text (String.singleton c ++ s) :: rest) ∨
      (∀ s ∈ (gather ls).head?, s.isText = false) ∧
        gather (.literal c :: ls) = .text (String.singleton c) :: gather ls := by
  rw [gather]
  split
  · next s rest h => exact .inl ⟨s, rest, h, rfl⟩
  · next h =>
    refine .inr ⟨fun first hfirst => ?_, rfl⟩
    obtain ⟨rest, hrest⟩ := List.head?_eq_some_iff.mp hfirst
    cases first with
    | text s => exact absurd hrest (h s rest)
    | token t => rfl

theorem lexemes_gather (ls : List Lexeme) : (gather ls).flatMap Segment.lexemes = ls := by
  induction ls with
  | nil => rfl
  | cons l ls ih =>
      cases l with
      | token t => simp [gather, Segment.lexemes, ih]
      | literal c =>
          rcases gather_literal c ls with ⟨s, rest, hrest, hgather⟩ | ⟨-, hgather⟩
          · rw [hrest] at ih
            simpa [hgather, Segment.lexemes] using ih
          · simp [hgather, Segment.lexemes, ih]

theorem normal_token {t : Token} : Normal (.token t :: segments) ↔ Normal segments := by
  refine ⟨fun h => ⟨fun hmem => h.nonempty (List.mem_cons_of_mem _ hmem), h.apart.tail⟩, fun h => ⟨?_, ?_⟩⟩
  · simpa using h.nonempty
  · exact List.isChain_cons.mpr ⟨fun next _ hboth => Bool.false_ne_true hboth.1, h.apart⟩

theorem normal_text {s : String} : Normal (.text s :: segments) ↔
    s ≠ "" ∧ (∀ next ∈ segments.head?, next.isText = false) ∧ Normal segments := by
  constructor
  · rintro ⟨hnonempty, hapart⟩
    obtain ⟨hnext, hrest⟩ := List.isChain_cons.mp hapart
    obtain ⟨hs, hmem⟩ := List.ne_and_not_mem_of_not_mem_cons hnonempty
    refine ⟨fun heq => hs (heq ▸ rfl), fun next hhead => ?_, hmem, hrest⟩
    exact Bool.not_eq_true _ ▸ fun htext => hnext next hhead ⟨rfl, htext⟩
  · rintro ⟨hs, hnext, hnonempty, hapart⟩
    refine ⟨?_, List.isChain_cons.mpr ⟨fun next hhead hboth => ?_, hapart⟩⟩
    · rw [List.mem_cons, not_or]
      exact ⟨fun heq => hs (Segment.text.inj heq).symm, hnonempty⟩
    · rw [hnext next hhead] at hboth
      exact Bool.false_ne_true hboth.2

theorem normal_gather (ls : List Lexeme) : Normal (gather ls) := by
  induction ls with
  | nil => exact ⟨by simp [gather], by simp [gather]⟩
  | cons l ls ih =>
      cases l with
      | token t => exact normal_token.mpr ih
      | literal c =>
          rcases gather_literal c ls with ⟨s, rest, hrest, hgather⟩ | ⟨hhead, hgather⟩
          · rw [hrest] at ih
            obtain ⟨-, hnext, hnormal⟩ := normal_text.mp ih
            rw [hgather]
            exact normal_text.mpr ⟨by simp [String.ext_iff], hnext, hnormal⟩
          · rw [hgather]
            exact normal_text.mpr ⟨by simp [String.ext_iff], hhead, ih⟩

theorem gather_text {cs : List Char} (hcs : cs ≠ []) (hls : ∀ next ∈ (gather ls).head?, next.isText = false) :
    gather (cs.map .literal ++ ls) = .text (String.ofList cs) :: gather ls := by
  induction cs with
  | nil => exact absurd rfl hcs
  | cons c cs ih =>
      rw [List.map_cons, List.cons_append]
      by_cases hnil : cs = []
      · subst hnil
        rcases gather_literal c ls with ⟨s, rest, hrest, -⟩ | ⟨-, hgather⟩
        · have htoken := hls (.text s) (by rw [hrest]; rfl)
          cases htoken
        · simpa using hgather
      · have hrest := ih hnil
        rcases gather_literal c (cs.map .literal ++ ls) with ⟨s, rest, heq, hgather⟩ | ⟨hhead, -⟩
        · obtain ⟨htext, hafter⟩ := List.cons.inj (hrest.symm.trans heq)
          rw [hgather, ← hafter, ← Segment.text.inj htext]
          simp
        · rw [hrest] at hhead
          cases hhead _ rfl

theorem gather_lexemes (h : Normal segments) : gather (segments.flatMap Segment.lexemes) = segments := by
  induction segments with
  | nil => rfl
  | cons segment rest ih =>
      cases segment with
      | token t =>
          have hrest := ih (normal_token.mp h)
          simpa [Segment.lexemes, gather] using hrest
      | text s =>
          obtain ⟨hs, hnext, hnormal⟩ := normal_text.mp h
          have hrest := ih hnormal
          rw [List.flatMap_cons, Segment.lexemes, gather_text (by simpa using hs) (by rwa [hrest]), hrest,
            String.ofList_toList]

theorem gather_eq_iff : gather ls = segments ↔ Normal segments ∧ segments.flatMap Segment.lexemes = ls := by
  constructor
  · rintro rfl
    exact ⟨normal_gather ls, lexemes_gather ls⟩
  · rintro ⟨hnormal, rfl⟩
    exact gather_lexemes hnormal

theorem parse_eq_ok_iff {s : String} : parse s = .ok segments ↔
    Normal segments ∧ Spelled (segments.flatMap Segment.lexemes) s.toList := by
  rw [parse, map_eq_ok]
  constructor
  · rintro ⟨ls, hlex, hgather⟩
    obtain ⟨hnormal, rfl⟩ := gather_eq_iff.mp hgather
    exact ⟨hnormal, lex_eq_ok_iff.mp hlex⟩
  · rintro ⟨hnormal, hspelled⟩
    exact ⟨_, lex_eq_ok_iff.mpr hspelled, gather_lexemes hnormal⟩

end Segments

section Writing

def Token.Valid : Token → Prop
  | .positional index => index < indexBound
  | .named name => isIdentifier name = true
  | .column => True

def doubled (s : String) : String :=
  String.ofList (s.toList.flatMap fun c => if c = '{' ∨ c = '}' then [c, c] else [c])

def Segment.written : Segment → String
  | .text s => doubled s
  | .token t => t.text

def write (segments : List Segment) : String :=
  String.join (segments.map Segment.written)

structure Canonical (segments : List Segment) : Prop extends Normal segments where
  valid : ∀ t, .token t ∈ segments → t.Valid

variable {t : Token} {ls : List Lexeme} {cs rest : List Char} {segments : List Segment}

theorem Token.Spelled.valid (h : t.Spelled cs) : t.Valid := by
  cases h with
  | column => exact trivial
  | positional _ _ hbound => exact hbound
  | named hname => simpa [Token.Valid, isIdentifier] using hname

theorem Spelled.valid (h : Spelled (segments.flatMap Segment.lexemes) cs) :
    ∀ t, .token t ∈ segments → t.Valid := by
  have hall : ∀ {ls cs}, Spelled ls cs → ∀ t, .token t ∈ ls → t.Valid := by
    intro ls cs h
    induction h with
    | nil => simp
    | token ht _ ih => simpa using ⟨ht.valid, ih⟩
    | _ => simpa
  intro t ht
  exact hall h t (List.mem_flatMap.mpr ⟨_, ht, List.mem_singleton.mpr rfl⟩)

theorem spelled_index {index : Nat} (h : index < indexBound) :
    (Token.positional index).Spelled (toString index).toList := by
  have hdigits : (toString index).toList = Nat.toDigits 10 index := Nat.toList_repr
  have hvalue : ofDigits (Nat.toDigits 10 index) = index := Nat.ofDigitChars_ten_toDigits
  have hspelled : (Token.positional (ofDigits (Nat.toDigits 10 index))).Spelled (Nat.toDigits 10 index) :=
    .positional Nat.toDigits_ne_nil (fun d hd => Nat.isDigit_of_mem_toDigits (by decide) (by decide) hd)
      (by rwa [hvalue])
  rw [hvalue] at hspelled
  rwa [hdigits]

theorem spelled_token (h : t.Valid) (hrest : Spelled ls rest) :
    Spelled (.token t :: ls) (t.text.toList ++ rest) := by
  cases t with
  | positional index => simpa [Token.text] using Spelled.token (spelled_index h) hrest
  | named name =>
      have hname : (Token.named (String.ofList name.toList)).Spelled name.toList := .named h
      rw [String.ofList_toList] at hname
      simpa [Token.text] using Spelled.token hname hrest
  | column => exact .token .column hrest

theorem spelled_text (cs : List Char) (hrest : Spelled ls rest) : Spelled (cs.map .literal ++ ls)
    ((cs.flatMap fun c => if c = '{' ∨ c = '}' then [c, c] else [c]) ++ rest) := by
  induction cs with
  | nil => exact hrest
  | cons c cs ih =>
      rw [List.map_cons, List.flatMap_cons, List.cons_append, List.append_assoc]
      split
      · next hbrace =>
        rcases hbrace with rfl | rfl
        · exact .opening ih
        · exact .closing ih
      · next hbrace =>
        rw [not_or] at hbrace
        exact .plain hbrace.1 hbrace.2 ih

theorem spelled_write (h : ∀ t, .token t ∈ segments → t.Valid) :
    Spelled (segments.flatMap Segment.lexemes) (write segments).toList := by
  induction segments with
  | nil => exact .nil
  | cons segment rest ih =>
      have hrest := ih fun t ht => h t (List.mem_cons_of_mem _ ht)
      have hsplit : (write (segment :: rest)).toList = segment.written.toList ++ (write rest).toList := by
        simp [write]
      rw [hsplit, List.flatMap_cons]
      cases segment with
      | text s =>
          rw [Segment.written, doubled, String.toList_ofList]
          exact spelled_text s.toList hrest
      | token t => exact spelled_token (h t List.mem_cons_self) hrest

theorem parse_write (h : Canonical segments) : parse (write segments) = .ok segments :=
  parse_eq_ok_iff.mpr ⟨h.toNormal, spelled_write h.valid⟩

theorem parse_doubled (s : String) : parse (doubled s) = .ok (if s = "" then [] else [.text s]) := by
  by_cases hs : s = ""
  · subst hs
    rfl
  · have hnormal : Normal [.text s] := normal_text.mpr ⟨hs, by simp, by simp, by simp⟩
    have hwritten : write [.text s] = doubled s := by simp [write, Segment.written]
    rw [if_neg hs, ← hwritten]
    exact parse_write ⟨hnormal, fun t ht => by simp at ht⟩

end Writing

theorem parse_eq_error_iff {s : String} {f : Fault} : parse s = .error f ↔ ∃ before rest,
    s = before ++ "\x7b" ++ rest ∧ (∃ read, parse before = .ok read) ∧ rest.toList.head? ≠ some '{' ∧
      Breaks before.utf8ByteSize rest.toList f := by
  have herror : parse s = .error f ↔ lex none 0 s.toList = .error f := by
    rw [parse]
    cases lex none 0 s.toList <;> simp [Except.map]
  rw [herror, lex_eq_error_iff]
  constructor
  · rintro ⟨before, rest, ls, hsplit, hspelled, hhead, hbreaks⟩
    refine ⟨String.ofList before, String.ofList rest, ?_, ?_, by simpa using hhead, ?_⟩
    · simp [String.ext_iff, hsplit]
    · have hlex : lex none 0 (String.ofList before).toList = .ok ls := by
        rw [String.toList_ofList]
        exact lex_of_spelled hspelled
      exact ⟨gather ls, map_eq_ok.mpr ⟨ls, hlex, rfl⟩⟩
    · simpa [size] using hbreaks
  · rintro ⟨before, rest, rfl, ⟨read, hread⟩, hhead, hbreaks⟩
    refine ⟨before.toList, rest.toList, _, by simp, (parse_eq_ok_iff.mp hread).2, hhead, ?_⟩
    rwa [size, String.ofList_toList, Nat.zero_add]

theorem parse_exact :
    (∀ segments, Canonical segments → parse (write segments) = .ok segments) ∧
      (∀ s, parse (doubled s) = .ok (if s = "" then [] else [.text s])) ∧
      (∀ s segments, parse s = .ok segments ↔
        Canonical segments ∧ Spelled (segments.flatMap Segment.lexemes) s.toList) ∧
      ∀ s f, parse s = .error f ↔ ∃ before rest, s = before ++ "\x7b" ++ rest ∧
        (∃ read, parse before = .ok read) ∧ rest.toList.head? ≠ some '{' ∧
          Breaks before.utf8ByteSize rest.toList f := by
  refine ⟨fun _ => parse_write, parse_doubled, fun s segments => ?_, fun _ _ => parse_eq_error_iff⟩
  rw [parse_eq_ok_iff]
  constructor
  · rintro ⟨hnormal, hspelled⟩
    exact ⟨⟨hnormal, hspelled.valid⟩, hspelled⟩
  · rintro ⟨hcanonical, hspelled⟩
    exact ⟨hcanonical.toNormal, hspelled⟩

theorem parse_braced : ∃ segments, Canonical segments ∧ segments.length = 4 ∧
    write segments = "\x7b\x7b\x7b7\x7d\x7d\x7d\x7b@\x7d" ∧ parse (write segments) = .ok segments := by
  have hcanonical : Canonical [.text "\x7b", .token (.positional 7), .text "\x7d", .token .column] := by
    refine ⟨⟨by decide, by simp [Segment.isText]⟩, fun t ht => ?_⟩
    have hbound : 7 < indexBound := by decide
    obtain rfl | rfl : t = .positional 7 ∨ t = .column := by simpa using ht
    · exact hbound
    · trivial
  exact ⟨_, hcanonical, rfl, by decide, parse_exact.1 _ hcanonical⟩

example : parse "\x7b\x7b\x7b007\x7d\x7d\x7d" = .ok [.text "\x7b", .token (.positional 7), .text "\x7d"] := by decide

end QueryCriteria.Template
