namespace QueryCriteria.Text

def isIdentifierHead (c : Char) : Bool :=
  c.isAlpha || c == '_'

def isIdentifierTail (c : Char) : Bool :=
  c.isAlphanum || c == '_'

def isIdentifierChars : List Char → Bool
  | [] => false
  | c :: cs => isIdentifierHead c && cs.all isIdentifierTail

def isIdentifier (s : String) : Bool :=
  isIdentifierChars s.toList

theorem isIdentifierTail_of_head {c : Char} (h : isIdentifierHead c) : isIdentifierTail c := by
  simp only [isIdentifierHead, isIdentifierTail, Char.isAlphanum, Bool.or_eq_true] at h ⊢
  exact h.imp Or.inl id

theorem isIdentifierChars_append {cs ds : List Char} (hc : isIdentifierChars cs)
    (hd : ds.all isIdentifierTail) : isIdentifierChars (cs ++ ds) := by
  cases cs with
  | nil => simp [isIdentifierChars] at hc
  | cons c cs =>
      simp only [isIdentifierChars, List.cons_append, Bool.and_eq_true, List.all_append] at hc ⊢
      exact ⟨hc.1, hc.2, hd⟩

end QueryCriteria.Text
