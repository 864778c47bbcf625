import QueryCriteria.Compile.Placement
import QueryCriteria.Proofs.Clauses

namespace QueryCriteria

namespace Piece

variable {α β : Type}

def map (g : α → β) : Piece α → Piece β
  | .text s => .text s
  | .hole a => .hole (g a)

theorem faithful_map (g : α → β) : SqlPart.Faithful (map g) where
  sql _ := rfl
  heading _ _ := rfl
  isEmpty p := by cases p <;> rfl

theorem length_holes_map (g : α → β) (ps : List (Piece α)) :
    (holes (ps.map (map g))).length = (holes ps).length := by
  induction ps with
  | nil => rfl
  | cons p ps ih => cases p <;> simpa [map] using ih

theorem write_append (fill : α → String) (ps qs : List (Piece α)) :
    write fill (ps ++ qs) = write fill ps ++ write fill qs := by
  rw [write, List.map_append, String.join_append]
  rfl

theorem write_map {g : α → β} {fill : β → String} {fill' : α → String}
    (h : ∀ a, fill (g a) = fill' a) (ps : List (Piece α)) :
    write fill (ps.map (map g)) = write fill' ps := by
  rw [write, write, List.map_map]
  refine congrArg String.join (List.map_congr_left fun p _ => ?_)
  cases p with
  | text s => rfl
  | hole a => exact h a

theorem blind_hole? : SqlPart.Blind (hole? : Piece α → Option α) where
  sql _ := rfl
  heading _ _ := rfl
  empty p hp := by
    cases p with
    | text s => rfl
    | hole a => cases hp

theorem holes_numberFrom (names : NumberedNames) (placed : Nat) (ps : List (Piece Value)) :
    holes (numberFrom names placed ps) =
      ((holes ps).zipIdx (placed + 1)).map fun (value, i) =>
        ⟨NumberedNames.name names.stem (names.issued + UInt64.ofNat i), i, value⟩ := by
  induction ps generalizing placed with
  | nil => rfl
  | cons p ps ih =>
      cases p with
      | text s => exact ih placed
      | hole value => simp [numberFrom, ih]

theorem numberFrom_of_holes {ps : List (Piece Value)} (h : holes ps = []) (names : NumberedNames)
    (placed other : Nat) : numberFrom names placed ps = numberFrom names other ps := by
  induction ps with
  | nil => rfl
  | cons p ps ih =>
      cases p with
      | text s => rw [numberFrom, numberFrom, ih h]
      | hole value => cases h

theorem all_isEmpty_numberFrom (names : NumberedNames) (placed : Nat) (ps : List (Piece Value)) :
    (numberFrom names placed ps).all SqlPart.isEmpty = ps.all SqlPart.isEmpty := by
  induction ps generalizing placed with
  | nil => rfl
  | cons p ps ih => cases p <;> rw [numberFrom, List.all_cons, List.all_cons, ih] <;> rfl

section Filled

def filled : List (Piece α) → List String → String
  | [], _ => ""
  | .text s :: ps, words => s ++ filled ps words
  | .hole _ :: ps, [] => filled ps []
  | .hole _ :: ps, word :: words => word ++ filled ps words

theorem write_cons (fill : α → String) (p : Piece α) (ps : List (Piece α)) :
    write fill (p :: ps) = write fill [p] ++ write fill ps :=
  write_append fill [p] ps

theorem filled_map (g : α → β) (ps : List (Piece α)) (words : List String) :
    filled (ps.map (map g)) words = filled ps words := by
  induction ps generalizing words with
  | nil => rfl
  | cons p ps ih =>
      cases p with
      | text s => simp [map, filled, ih]
      | hole a => cases words <;> simp [map, filled, ih]

theorem filled_holes (fill : α → String) (ps : List (Piece α)) (more : List String) :
    filled ps ((holes ps).map fill ++ more) = write fill ps := by
  induction ps with
  | nil => rfl
  | cons p ps ih =>
      rw [write_cons, ← ih]
      cases p <;> simp [filled, write]

theorem map_value_numberFrom (names : NumberedNames) (placed : Nat) (ps : List (Piece Value)) :
    (numberFrom names placed ps).map (map Parameter.value) = ps := by
  induction ps generalizing placed with
  | nil => rfl
  | cons p ps ih => cases p <;> simp [numberFrom, map, ih]

theorem filled_numberFrom (names : NumberedNames) (placed : Nat) (ps : List (Piece Value))
    (words : List String) : filled (numberFrom names placed ps) words = filled ps words := by
  rw [← filled_map Parameter.value, map_value_numberFrom]

end Filled

end Piece

namespace Clauses

variable {α : Type} {c : Clauses (Piece α)}

theorem holes_statement (hselect : Piece.holes c.select = []) (hgroup : Piece.holes c.group = [])
    (horder : Piece.holes c.order = []) : Piece.holes c.statement = Piece.holes c.bindingOrder := by
  have hall : Piece.holes c.statement =
      Piece.holes c.select ++ Piece.holes c.source ++ Piece.holes c.filter ++ Piece.holes c.group ++
        Piece.holes c.order := filterMap_statement Piece.blind_hole? c
  simp [hall, bindingOrder, Piece.holes_append, hselect, hgroup, horder]

theorem holes_countStatement (hselect : Piece.holes c.select = []) (hgroup : Piece.holes c.group = [])
    (horder : Piece.holes c.order = []) (distinct keepOrder : Bool) :
    Piece.holes (c.countStatement distinct keepOrder) = Piece.holes c.bindingOrder := by
  simp only [bindingOrder, Piece.holes_append, hselect, hgroup, horder, List.append_nil]
  exact filterMap_countStatement Piece.blind_hole? hselect hgroup horder distinct keepOrder

theorem holes_number {c : Clauses (Piece Value)} (hselect : Piece.holes c.select = [])
    (hgroup : Piece.holes c.group = []) (horder : Piece.holes c.order = []) (names : NumberedNames) :
    Piece.holes (c.number names).select = [] ∧ Piece.holes (c.number names).group = [] ∧
      Piece.holes (c.number names).order = [] := by
  simp [number, Piece.holes_numberFrom, hselect, hgroup, horder]

theorem holes_clause (keyword : String) (ps : List (Piece α)) :
    Piece.holes (clause keyword ps) = Piece.holes ps :=
  filterMap_clause Piece.blind_hole? keyword ps

theorem numberFrom_clause (names : NumberedNames) (placed : Nat) (keyword : String) (ps : List (Piece Value)) :
    numberFrom names placed (clause keyword ps) = clause keyword (numberFrom names placed ps) := by
  unfold clause
  rw [Piece.all_isEmpty_numberFrom]
  split <;> rfl

theorem statement_number {c : Clauses (Piece Value)} (hselect : Piece.holes c.select = [])
    (hgroup : Piece.holes c.group = []) (horder : Piece.holes c.order = []) (names : NumberedNames) :
    (c.number names).statement = numberFrom names 0 c.statement := by
  have hwindow : ∀ placed, numberFrom names placed (windowParts c.window) = windowParts c.window := by
    intro placed
    cases c.window <;> rfl
  have htext : ∀ placed s (ps : List (Piece Value)),
      numberFrom names placed (SqlPart.sql s :: ps) = SqlPart.sql s :: numberFrom names placed ps :=
    fun _ _ _ => rfl
  have hsql : ∀ s (ps : List (Piece Value)), Piece.holes (SqlPart.sql s :: ps) = Piece.holes ps :=
    fun _ _ => rfl
  simp only [statement, query, number, numberFrom_append, numberFrom_clause, holes_clause, Piece.holes_append,
    htext, hsql, hselect, hgroup, horder, hwindow, List.length_nil, Nat.add_zero, Nat.zero_add, List.nil_append,
    List.append_nil, List.cons_append, List.length_append]
  rw [Piece.numberFrom_of_holes hselect names _ 0]

end Clauses

end QueryCriteria
