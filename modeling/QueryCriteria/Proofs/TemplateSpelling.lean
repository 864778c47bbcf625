import QueryCriteria.Criteria.Template

namespace QueryCriteria.Template

open QueryCriteria.Decimal QueryCriteria.Text

inductive Token.Spelled : Token → List Char → Prop
  | column : Spelled .column ['@']
  | positional {ds : List Char} : ds ≠ [] → (∀ d ∈ ds, d.isDigit = true) → ofDigits ds < indexBound →
      Spelled (.positional (ofDigits ds)) ds
  | named {cs : List Char} : isIdentifierChars cs = true → Spelled (.named (String.ofList cs)) cs

section Token

variable {t : Token} {body cs token : List Char} {start position : Nat}

theorem isDigit_of_isIdentifierHead {c : Char} (h : isIdentifierHead c = true) : c.isDigit = false := by
  simp only [isIdentifierHead, Bool.or_eq_true, beq_iff_eq] at h
  rcases h with h | rfl
  · have hletter : (decide (65 ≤ c.val ∧ c.val ≤ 90) || 97 ≤ c.val && c.val ≤ 122) = true := h
    have hdigit : c.isDigit = (48 ≤ c.val && c.val ≤ 57) := rfl
    grind
  · rfl

theorem classify?_eq_some_iff : classify? cs = some t ↔ t.Spelled cs := by
  constructor
  · intro h
    unfold classify? at h
    split at h
    · next hcolumn =>
      cases h
      exact hcolumn ▸ .column
    split at h
    · next hdigits =>
      split at h
      · next hbound =>
        cases h
        exact .positional hdigits.1 (List.all_eq_true.mp hdigits.2) hbound
      · cases h
    split at h
    · next hname =>
      cases h
      exact .named hname
    · cases h
  · intro h
    cases h with
    | column => rfl
    | positional hne hdigits hbound =>
        have hcolumn : cs ≠ ['@'] := by
          rintro rfl
          exact absurd (hdigits '@' (by simp)) (by decide)
        rw [classify?, if_neg hcolumn, if_pos ⟨hne, List.all_eq_true.mpr hdigits⟩, if_pos hbound]
    | named hname =>
        obtain _ | ⟨c, rest⟩ := cs
        · cases hname
        have hhead : isIdentifierHead c = true := (Bool.and_eq_true_iff.mp hname).1
        have hcolumn : c :: rest ≠ ['@'] := by
          rintro heq
          cases heq
          exact absurd hhead (by decide)
        have hdigits : ¬ (c :: rest ≠ [] ∧ (c :: rest).all Char.isDigit = true) := by
          simp [isDigit_of_isIdentifierHead hhead]
        rw [classify?, if_neg hcolumn, if_neg hdigits, if_pos hname]

theorem Token.Spelled.ne_brace (h : t.Spelled cs) : ∀ c ∈ cs, c ≠ '{' ∧ c ≠ '}' := by
  intro c hc
  suffices c = '@' ∨ isIdentifierTail c = true by
    constructor <;> (rintro rfl; revert this; decide)
  cases h with
  | column => exact .inl (List.mem_singleton.mp hc)
  | positional _ hdigits _ =>
      right
      simp [isIdentifierTail, Char.isAlphanum, hdigits c hc]
  | named hname =>
      right
      obtain _ | ⟨first, rest⟩ := cs
      · cases hname
      obtain ⟨hhead, htail⟩ := Bool.and_eq_true_iff.mp hname
      rcases List.mem_cons.mp hc with rfl | hc
      · exact isIdentifierTail_of_head hhead
      · exact List.all_eq_true.mp htail c hc

end Token

section Lexing

variable {c : Char} {body cs rest token : List Char} {start position : Nat}

abbrev size (cs : List Char) : Nat :=
  (String.ofList cs).utf8ByteSize

theorem size_cons (c : Char) (cs : List Char) : size (c :: cs) = c.utf8Size + size cs := by
  have hsplit : String.ofList (c :: cs) = String.singleton c ++ String.ofList cs := by simp
  rw [size, hsplit, String.utf8ByteSize_append, String.utf8ByteSize_singleton]

theorem size_append (cs rest : List Char) : size (cs ++ rest) = size cs + size rest := by
  rw [size, String.ofList_append, String.utf8ByteSize_append]

theorem lex_unclosed (h : '}' ∉ cs) : lex (some (start, token)) position cs = .error (.unclosed start) := by
  induction cs generalizing token position with
  | nil => rfl
  | cons c cs ih =>
      obtain ⟨hc, hcs⟩ := List.ne_and_not_mem_of_not_mem_cons h
      rw [lex, if_neg hc.symm]
      exact ih hcs

theorem lex_body (h : '}' ∉ body) : lex (some (start, token)) position (body ++ rest) =
    lex (some (start, body.reverse ++ token)) (position + size body) rest := by
  induction body generalizing token position with
  | nil => simp [size]
  | cons c body ih =>
      obtain ⟨hc, hbody⟩ := List.ne_and_not_mem_of_not_mem_cons h
      rw [List.cons_append, lex, if_neg hc.symm, ih hbody, size_cons]
      simp [Nat.add_assoc]

theorem lex_closed {t : Token} (h : t.Spelled token.reverse) :
    lex (some (start, token)) position ('}' :: rest) = (lex none (position + 1) rest).map (.token t :: ·) := by
  rw [lex, if_pos rfl, classify?_eq_some_iff.mpr h]

theorem lex_invalid (h : ∀ t : Token, ¬ t.Spelled token.reverse) : lex (some (start, token)) position ('}' :: rest) =
    .error (.invalidToken (String.ofList token.reverse) start) := by
  have hnone : classify? token.reverse = none :=
    Option.eq_none_iff_forall_ne_some.mpr fun t ht => h t (classify?_eq_some_iff.mp ht)
  rw [lex, if_pos rfl, hnone]

theorem lex_letter (hopening : c ≠ '{') (hclosing : c = '}' → cs.head? ≠ some '}') :
    lex none position (c :: cs) = (lex none (position + c.utf8Size) cs).map (.literal c :: ·) := by
  cases cs with
  | nil => simp [lex, hopening, Except.map]
  | cons d ds =>
      have hpair : ¬ (c = '{' ∧ d = '{' ∨ c = '}' ∧ d = '}') := by
        rintro (⟨hc, -⟩ | ⟨hc, rfl⟩)
        · exact hopening hc
        · exact hclosing hc rfl
      rw [lex, if_neg hpair, if_neg hopening]

theorem lex_doubled (h : c = '{' ∨ c = '}') :
    lex none position (c :: c :: cs) = (lex none (position + 2) cs).map (.literal c :: ·) := by
  have hpair : c = '{' ∧ c = '{' ∨ c = '}' ∧ c = '}' := by simpa using h
  rw [lex, if_pos hpair]

theorem lex_brace (h : cs.head? ≠ some '{') :
    lex none position ('{' :: cs) = lex (some (position, [])) (position + 1) cs := by
  cases cs with
  | nil => rfl
  | cons d ds =>
      have hpair : ¬ ('{' = '{' ∧ d = '{' ∨ '{' = '}' ∧ d = '}') := by
        rintro (⟨-, rfl⟩ | ⟨hc, -⟩)
        · exact h rfl
        · cases hc
      conv => lhs; rw [lex, if_neg hpair, if_pos rfl]

end Lexing

inductive Spelled : List Lexeme → List Char → Prop
  | nil : Spelled [] []
  | plain {c : Char} {ls : List Lexeme} {cs : List Char} : c ≠ '{' → c ≠ '}' → Spelled ls cs →
      Spelled (.literal c :: ls) (c :: cs)
  | opening {ls : List Lexeme} {cs : List Char} : Spelled ls cs →
      Spelled (.literal '{' :: ls) ('{' :: '{' :: cs)
  | closing {ls : List Lexeme} {cs : List Char} : Spelled ls cs →
      Spelled (.literal '}' :: ls) ('}' :: '}' :: cs)
  | lone {ls : List Lexeme} {cs : List Char} : cs.head? ≠ some '}' → Spelled ls cs →
      Spelled (.literal '}' :: ls) ('}' :: cs)
  | token {t : Token} {body : List Char} {ls : List Lexeme} {cs : List Char} : t.Spelled body →
      Spelled ls cs → Spelled (.token t :: ls) ('{' :: body ++ '}' :: cs)

inductive Breaks (position : Nat) : List Char → Fault → Prop
  | unclosed {rest : List Char} : '}' ∉ rest → Breaks position rest (.unclosed position)
  | invalid {body rest : List Char} : '}' ∉ body → (∀ t : Token, ¬ t.Spelled body) →
      Breaks position (body ++ '}' :: rest) (.invalidToken (String.ofList body) position)

section Reading

variable {ls : List Lexeme} {cs rest : List Char} {position : Nat} {f : Fault}

theorem map_cons_append (l : Lexeme) (ls : List Lexeme) (read : Except Fault (List Lexeme)) :
    (read.map (ls ++ ·)).map (l :: ·) = read.map (l :: ls ++ ·) := by
  cases read <;> rfl

theorem lex_append (h : Spelled ls cs) (hrest : rest.head? ≠ some '}') :
    lex none position (cs ++ rest) = (lex none (position + size cs) rest).map (ls ++ ·) := by
  have htwo : ∀ cs, size ('{' :: '{' :: cs) = 2 + size cs ∧ size ('}' :: '}' :: cs) = 2 + size cs := by
    intro cs
    have hopening : '{'.utf8Size = 1 := rfl
    have hclosing : '}'.utf8Size = 1 := rfl
    simp only [size_cons, hopening, hclosing]
    omega
  induction h generalizing position with
  | nil => cases hlex : lex none position rest <;> simp [size, hlex, Except.map]
  | plain hopening hclosing _ ih =>
      rw [List.cons_append, lex_letter hopening fun hc => absurd hc hclosing, ih, size_cons,
        map_cons_append, Nat.add_assoc]
  | opening _ ih =>
      rw [List.cons_append, List.cons_append, lex_doubled (.inl rfl), ih, (htwo _).1, map_cons_append,
        Nat.add_assoc]
  | closing _ ih =>
      rw [List.cons_append, List.cons_append, lex_doubled (.inr rfl), ih, (htwo _).2, map_cons_append,
        Nat.add_assoc]
  | @lone ls cs hhead _ ih =>
      have hnext : (cs ++ rest).head? ≠ some '}' := by
        cases cs with
        | nil => exact hrest
        | cons d ds => exact hhead
      rw [List.cons_append, lex_letter (by decide) fun _ => hnext, ih, size_cons, map_cons_append,
        Nat.add_assoc]
  | @token t body ls cs ht _ ih =>
      have hbody : '}' ∉ body := fun hmem => (ht.ne_brace _ hmem).2 rfl
      have hhead : (body ++ '}' :: (cs ++ rest)).head? ≠ some '{' := by
        cases body with
        | nil => simp
        | cons d ds =>
            intro heq
            exact (ht.ne_brace d List.mem_cons_self).1 (Option.some.inj heq)
      have hone : '{'.utf8Size = 1 ∧ '}'.utf8Size = 1 := ⟨rfl, rfl⟩
      have hsplit : '{' :: body ++ '}' :: cs ++ rest = '{' :: (body ++ '}' :: (cs ++ rest)) := by simp
      have hspelled : t.Spelled (body.reverse ++ []).reverse := by simpa using ht
      rw [hsplit, lex_brace hhead, lex_body hbody, lex_closed hspelled, ih, map_cons_append, size_append,
        size_cons, size_cons, hone.1, hone.2]
      congr 2
      omega

theorem lex_breaks (hhead : rest.head? ≠ some '{') (h : Breaks position rest f) :
    lex none position ('{' :: rest) = .error f := by
  rw [lex_brace hhead]
  cases h with
  | unclosed hclosing => exact lex_unclosed hclosing
  | invalid hbody hinvalid =>
      rw [lex_body hbody, lex_invalid (by simpa using hinvalid)]
      simp

theorem exists_breaks_of_not_spelled (rest : List Char)
    (h : ∀ (t : Token) (body after : List Char), t.Spelled body → rest ≠ body ++ '}' :: after) (position : Nat) :
    ∃ f, Breaks position rest f := by
  by_cases hclosing : '}' ∈ rest
  · obtain ⟨body, after, rfl, hbody⟩ := List.eq_append_cons_of_mem hclosing
    exact ⟨_, .invalid hbody fun t ht => h t body after ht rfl⟩
  · exact ⟨_, .unclosed hclosing⟩

def Read (cs : List Char) : Prop :=
  (∃ ls, Spelled ls cs) ∨ ∃ before rest ls, cs = before ++ '{' :: rest ∧ Spelled ls before ∧
    rest.head? ≠ some '{' ∧ ∀ position, ∃ f, Breaks position rest f

theorem Read.extend (written : List Char) {l : Lexeme} (h : Read cs)
    (hl : ∀ ls before, before <+: cs → Spelled ls before → Spelled (l :: ls) (written ++ before)) :
    Read (written ++ cs) := by
  rcases h with ⟨ls, hls⟩ | ⟨before, rest, ls, rfl, hls, hhead, hbreaks⟩
  · exact .inl ⟨l :: ls, hl ls cs List.prefix_rfl hls⟩
  · refine .inr ⟨written ++ before, rest, l :: ls, ?_, ?_, hhead, hbreaks⟩
    · rw [List.append_assoc]
    · exact hl ls before (List.prefix_append _ _) hls

theorem read_all : ∀ cs : List Char, Read cs
  | [] => .inl ⟨[], .nil⟩
  | c :: cs => by
      by_cases hopening : c = '{'
      · subst hopening
        by_cases hdoubled : cs.head? = some '{'
        · obtain ⟨rest, rfl⟩ := List.head?_eq_some_iff.mp hdoubled
          exact (read_all rest).extend ['{', '{'] fun _ _ _ h => .opening h
        · by_cases htoken : ∃ (t : Token) (body after : List Char), t.Spelled body ∧ cs = body ++ '}' :: after
          · obtain ⟨t, body, after, ht, rfl⟩ := htoken
            have hread := (read_all after).extend ('{' :: body ++ ['}']) (l := .token t)
              fun ls before _ h => by simpa using Spelled.token ht h
            simpa using hread
          · refine .inr ⟨[], cs, [], rfl, .nil, hdoubled, exists_breaks_of_not_spelled cs ?_⟩
            intro t body after ht heq
            exact htoken ⟨t, body, after, ht, heq⟩
      · by_cases hclosing : c = '}'
        · subst hclosing
          by_cases hdoubled : cs.head? = some '}'
          · obtain ⟨rest, rfl⟩ := List.head?_eq_some_iff.mp hdoubled
            exact (read_all rest).extend ['}', '}'] fun _ _ _ h => .closing h
          · refine (read_all cs).extend ['}'] fun ls before hprefix h => .lone ?_ h
            intro hhead
            obtain ⟨after, rfl⟩ := List.head?_eq_some_iff.mp hhead
            obtain ⟨rest, rfl⟩ := hprefix
            exact hdoubled rfl
        · exact (read_all cs).extend [c] fun _ _ _ h => .plain hopening hclosing h
termination_by cs => cs.length

theorem lex_of_spelled (h : Spelled ls cs) : lex none position cs = .ok ls := by
  have hread : lex none position (cs ++ []) = _ := lex_append h (by simp)
  rw [List.append_nil] at hread
  rw [hread, lex, Except.map, List.append_nil]

theorem lex_of_breaks {before : List Char} (h : Spelled ls before) (hhead : rest.head? ≠ some '{')
    (hbreaks : Breaks (position + size before) rest f) :
    lex none position (before ++ '{' :: rest) = .error f := by
  rw [lex_append h (by simp), lex_breaks hhead hbreaks, Except.map]

theorem lex_eq_ok_iff : lex none position cs = .ok ls ↔ Spelled ls cs := by
  refine ⟨fun h => ?_, lex_of_spelled⟩
  rcases read_all cs with ⟨read, hread⟩ | ⟨before, rest, read, rfl, hread, hhead, hbreaks⟩
  · rw [lex_of_spelled hread] at h
    cases h
    exact hread
  · obtain ⟨f, hf⟩ := hbreaks (position + size before)
    rw [lex_of_breaks hread hhead hf] at h
    cases h

theorem lex_eq_error_iff : lex none position cs = .error f ↔ ∃ before rest ls, cs = before ++ '{' :: rest ∧
    Spelled ls before ∧ rest.head? ≠ some '{' ∧ Breaks (position + size before) rest f := by
  constructor
  · intro h
    rcases read_all cs with ⟨read, hread⟩ | ⟨before, rest, read, rfl, hread, hhead, hbreaks⟩
    · rw [lex_of_spelled hread] at h
      cases h
    · obtain ⟨g, hg⟩ := hbreaks (position + size before)
      rw [lex_of_breaks hread hhead hg] at h
      cases h
      exact ⟨before, rest, read, rfl, hread, hhead, hg⟩
  · rintro ⟨before, rest, read, rfl, hread, hhead, hbreaks⟩
    exact lex_of_breaks hread hhead hbreaks

end Reading

end QueryCriteria.Template
