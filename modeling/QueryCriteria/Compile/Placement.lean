import QueryCriteria.Compile.Fragment
import QueryCriteria.Scope.Names

namespace QueryCriteria

structure Context where
  alias? : CriteriaId → Option String
  qualifies : CriteriaId → Bool

inductive Piece (α : Type) where
  | text (s : String)
  | hole (a : α)
deriving DecidableEq, Repr

namespace Piece

variable {α : Type}

instance : SqlPart (Piece α) where
  sql := .text
  heading keyword _ := .text keyword
  isEmpty
    | .text s => s == ""
    | .hole _ => false

def hole? : Piece α → Option α
  | .text _ => none
  | .hole a => some a

def holes (ps : List (Piece α)) : List α :=
  ps.filterMap hole?

@[simp]
theorem holes_nil : holes ([] : List (Piece α)) = [] := rfl

@[simp]
theorem holes_text_cons (s : String) (ps : List (Piece α)) : holes (.text s :: ps) = holes ps := rfl

@[simp]
theorem holes_hole_cons (a : α) (ps : List (Piece α)) : holes (.hole a :: ps) = a :: holes ps := rfl

theorem holes_append (ps qs : List (Piece α)) : holes (ps ++ qs) = holes ps ++ holes qs :=
  List.filterMap_append

def write (fill : α → String) (ps : List (Piece α)) : String :=
  String.join (ps.map fun
    | .text s => s
    | .hole a => fill a)

end Piece

namespace ColumnUse

def needsOwner (use : ColumnUse) (ctx : Context) : Bool :=
  use.tableAlias.isNone && !use.target.isRaw && (use.correlated || ctx.qualifies use.owner)

def qualifier? (use : ColumnUse) (ctx : Context) : Option String :=
  match use.tableAlias with
  | some given => some given
  | none => if use.needsOwner ctx then ctx.alias? use.owner else none

def text (use : ColumnUse) (ctx : Context) : String :=
  match use.qualifier? ctx with
  | some qualifier => qualifier ++ "." ++ use.target.sqlName
  | none => use.target.sqlName

def failure? (use : ColumnUse) (ctx : Context) : Option CompileError :=
  if use.needsOwner ctx && (ctx.alias? use.owner).isNone then
    some (.scope (.unknownCriteria use.owner))
  else none

end ColumnUse

namespace Fragment

def failure? (ctx : Context) : Fragment → Option CompileError
  | .column use => use.failure? ctx
  | .source id _ => if (ctx.alias? id).isNone then some (.scope (.unknownCriteria id)) else none
  | .reject e => some e
  | .rejectEmpty use => some ((use.failure? ctx).getD (.emptyInList (use.text ctx)))
  | _ => none

def piece (ctx : Context) : Fragment → Piece Value
  | .sql text => .text text
  | .keyword text use => .text (if use.text ctx = "" then "" else text)
  | .lead none => .text ""
  | .lead (some connective) => .text (" " ++ connective.text ++ " ")
  | .column use => .text (use.text ctx)
  | .bind value => .hole value
  | .source id table => .text (table ++ " " ++ (ctx.alias? id).getD "")
  | .openGroup negated => .text (if negated then "NOT (" else "(")
  | .closeGroup => .text ")"
  | .openQuery => .text "("
  | .closeQuery => .text ")"
  | .reject _ => .text ""
  | .rejectEmpty _ => .text ""

def firstFailure? (ctx : Context) (fs : List Fragment) : Option CompileError :=
  fs.findSome? (failure? ctx)

def boundBeforeFailure (ctx : Context) (fs : List Fragment) : Nat :=
  (fs.takeWhile fun f => (f.failure? ctx).isNone).countP isBind

theorem isSome_hole?_piece (ctx : Context) (f : Fragment) :
    (f.piece ctx).hole?.isSome = f.isBind := by
  cases f with
  | lead connective => cases connective <;> rfl
  | _ => rfl

theorem length_holes_piece (ctx : Context) (fs : List Fragment) :
    (Piece.holes (fs.map (piece ctx))).length = fs.countP isBind := by
  induction fs with
  | nil => rfl
  | cons f fs ih =>
      have hf := isSome_hole?_piece ctx f
      rw [List.map_cons, List.countP_cons, ← ih, ← hf]
      cases hp : f.piece ctx <;> simp [Piece.hole?]

end Fragment

structure Parameter where
  name : String
  ordinal : Nat
  value : Value

def numberFrom (names : NumberedNames) (placed : Nat) : List (Piece Value) → List (Piece Parameter)
  | [] => []
  | .text s :: ps => .text s :: numberFrom names placed ps
  | .hole value :: ps =>
      .hole ⟨NumberedNames.name names.stem (names.issued + UInt64.ofNat (placed + 1)), placed + 1,
        value⟩ :: numberFrom names (placed + 1) ps

theorem numberFrom_append (names : NumberedNames) (placed : Nat) (ps qs : List (Piece Value)) :
    numberFrom names placed (ps ++ qs) =
      numberFrom names placed ps ++ numberFrom names (placed + (Piece.holes ps).length) qs := by
  induction ps generalizing placed with
  | nil => rfl
  | cons p ps ih =>
      cases p with
      | text s => simp [numberFrom, ih]
      | hole v => simp [numberFrom, ih, Nat.add_assoc, Nat.add_comm 1]

def Clauses.number (names : NumberedNames) (c : Clauses (Piece Value)) : Clauses (Piece Parameter) :=
  let source := (Piece.holes c.source).length
  let filter := source + (Piece.holes c.filter).length
  let group := filter + (Piece.holes c.group).length
  let order := group + (Piece.holes c.order).length
  { select := numberFrom names order c.select
    source := numberFrom names 0 c.source
    filter := numberFrom names source c.filter
    group := numberFrom names filter c.group
    order := numberFrom names group c.order
    window := c.window }

theorem Clauses.bindingOrder_number (names : NumberedNames) (c : Clauses (Piece Value)) :
    (c.number names).bindingOrder = numberFrom names 0 c.bindingOrder := by
  simp [number, bindingOrder, numberFrom_append, Nat.add_assoc]

end QueryCriteria
