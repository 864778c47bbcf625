import QueryCriteria.Proofs.Compilation
import QueryCriteria.Proofs.Pieces

namespace QueryCriteria

def Value.veil : Value → Value
  | .list items => .list (items.map fun _ => .null)
  | _ => .null

def TemplateArgs.veil (args : TemplateArgs) : TemplateArgs where
  positional := args.positional.map Value.veil
  named := ⟨args.named.entries.map fun (name, value) => (name, value.veil)⟩

def Test.veil : Test → Test
  | .compare op _ => .compare op .null
  | .range op values => .range op (values.map fun _ => .null)
  | .between op _ _ => .between op .null .null
  | .fuzzy op _ wildcard escape => .fuzzy op "" wildcard escape
  | .nullable op => .nullable op
  | .template args column => .template args.veil column
  | .columnEqual other => .columnEqual other

mutual
def Criteria.veil : Criteria → Criteria
  | .mk node ps js => .mk node (veilPredicates ps) (veilJoins js)

def veilJoins : List Criteria → List Criteria
  | [] => []
  | c :: cs => c.veil :: veilJoins cs

def Predicate.veil : Predicate → Predicate
  | .test head t => .test head t.veil
  | .existence head negated query => .existence head negated query.veil
  | .subquery head op query => .subquery head op query.veil
  | .nested head negated children => .nested head negated (veilPredicates children)

def veilPredicates : List Predicate → List Predicate
  | [] => []
  | p :: ps => p.veil :: veilPredicates ps
end

theorem veilPredicates_eq_map (ps : List Predicate) : veilPredicates ps = ps.map Predicate.veil := by
  induction ps with
  | nil => rfl
  | cons p ps ih => simp [veilPredicates, ih]

theorem veilJoins_eq_map (js : List Criteria) : veilJoins js = js.map Criteria.veil := by
  induction js with
  | nil => rfl
  | cons c cs ih => simp [veilJoins, ih]

@[simp]
theorem veil_mk (node : Node) (ps : List Predicate) (js : List Criteria) :
    (Criteria.mk node ps js).veil = .mk node (ps.map Predicate.veil) (js.map Criteria.veil) := by
  rw [Criteria.veil, veilPredicates_eq_map, veilJoins_eq_map]

@[simp]
theorem veil_nested (head : Predicate.Head) (negated : Bool) (children : List Predicate) :
    (Predicate.nested head negated children).veil =
      .nested head negated (children.map Predicate.veil) := by
  rw [Predicate.veil, veilPredicates_eq_map]

@[simp]
theorem node_veil (c : Criteria) : c.veil.node = c.node := by
  cases c
  rfl

@[simp]
theorem head_veil (p : Predicate) : p.veil.head = p.head := by
  cases p <;> rfl

theorem references_veil_test (t : Test) : t.veil.references = t.references := by
  cases t <;> rfl

theorem references_veil :
    (∀ c : Criteria, c.veil.references = c.references) ∧
    ∀ p : Predicate, p.veil.references = p.references := by
  apply tree_induction
  case criteria =>
    intro node ps js hp hj
    simp only [veil_mk, references_mk, List.flatMap_map]
    rw [List.flatMap_congr hp, List.flatMap_congr hj]
    simp [Criteria.ownReference, Criteria.joins, Criteria.scope, Criteria.id, Criteria.node]
  case test =>
    intro head t
    rw [Predicate.veil, Predicate.references, Predicate.references, references_veil_test]
  case existence =>
    intro head negated query hq
    rw [Predicate.veil, Predicate.references, Predicate.references, hq]
  case subquery =>
    intro head op query hq
    rw [Predicate.veil, Predicate.references, Predicate.references, hq]
  case nested =>
    intro head negated children hc
    rw [veil_nested, references_nested, references_nested, List.flatMap_map, List.flatMap_congr hc]

theorem fetchedItems_veil (c : Criteria) : fetchedItems c.veil = fetchedItems c := by
  revert c
  refine (tree_induction (P := fun _ => True) ?_ ?_ ?_ ?_ ?_).1
  case refine_1 =>
    intro node ps js _ hj
    rw [veil_mk, fetchedItems, fetchedItems, allFetchedItems_eq_flatMap, allFetchedItems_eq_flatMap,
      List.flatMap_map, List.flatMap_congr hj]
  all_goals simp

theorem projection_veil (node : Node) (js : List Criteria) :
    projection node (js.map Criteria.veil) = projection node js := by
  have hitems : allFetchedItems (js.map Criteria.veil) = allFetchedItems js := by
    simp only [allFetchedItems_eq_flatMap, List.flatMap_map, fetchedItems_veil]
  rw [projection, projection, hitems]

namespace Fragment

def veil : Fragment → Fragment
  | .bind _ => .bind .null
  | f => f

theorem faithful_veil : SqlPart.Faithful veil where
  sql _ := rfl
  heading := heading_map (g := fun use => use) (fun _ => rfl) (fun _ _ => rfl) (fun f => by cases f <;> rfl)
    fun f => by cases f <;> rfl
  isEmpty f := by cases f <;> rfl

end Fragment

open Fragment

theorem map_veil_boundList (values : List Value) (g : Value → Value) :
    (boundList (values.map g)).map veil = (boundList values).map veil := by
  have hcons : ∀ v w vs, boundList (v :: w :: vs) = .bind v :: .sql "," :: boundList (w :: vs) :=
    fun _ _ _ => rfl
  induction values with
  | nil => rfl
  | cons v vs ih =>
      cases vs with
      | nil => rfl
      | cons w vs =>
          simp only [List.map_cons, hcons] at ih ⊢
          rw [ih]
          rfl

theorem map_veil_argumentFragments (template : String) (token : Template.Token)
    (argument : Option Value) :
    (argumentFragments template token (argument.map Value.veil)).map veil =
      (argumentFragments template token argument).map veil := by
  cases argument with
  | none => rfl
  | some value =>
      cases value with
      | list items =>
          cases items with
          | nil => rfl
          | cons v vs => exact map_veil_boundList (v :: vs) fun _ => .null
      | _ => rfl

theorem get?_named_veil (args : TemplateArgs) (name : String) :
    args.veil.named.get? name = (args.named.get? name).map Value.veil := by
  simp only [TemplateArgs.veil, NameMap.get?]
  induction args.named.entries with
  | nil => rfl
  | cons entry rest ih =>
      obtain ⟨other, value⟩ := entry
      simp only [List.map_cons, List.lookup_cons]
      cases name == other with
      | true => rfl
      | false => exact ih

theorem map_veil_templateFragments (template : String) (args : TemplateArgs)
    (column : Option ColumnUse) :
    (templateFragments template args.veil column).map veil =
      (templateFragments template args column).map veil := by
  unfold templateFragments
  split
  next => rfl
  next segments hparse =>
    rw [List.map_flatMap, List.map_flatMap]
    refine List.flatMap_congr fun segment _ => ?_
    cases segment with
    | text s => rfl
    | token token =>
        cases token with
        | positional index =>
            rw [segmentFragments, segmentFragments, TemplateArgs.veil, List.getElem?_map,
              map_veil_argumentFragments]
        | named name =>
            rw [segmentFragments, segmentFragments, get?_named_veil, map_veil_argumentFragments]
        | column => rfl

theorem map_veil_testFragments (enclosing : CriteriaId) (head : Predicate.Head) (target : Target)
    (t : Test) :
    (testFragments enclosing head target t.veil).map veil =
      (testFragments enclosing head target t).map veil := by
  cases t with
  | range op values =>
      cases values with
      | nil => rfl
      | cons v vs =>
          have hlist := map_veil_boundList (v :: vs) fun _ => .null
          simp only [Test.veil, testFragments, List.map_cons] at hlist ⊢
          simp only [hlist, List.isEmpty_cons, Bool.false_eq_true, if_false, List.map_append,
            List.map_cons]
  | template args column => exact map_veil_templateFragments target.sqlName args _
  | _ => rfl

theorem map_veil_predicateFragments (enclosing : CriteriaId) {ps : List Predicate}
    (hp : ∀ p ∈ ps, (predicateFragment enclosing p.veil).map veil =
      (predicateFragment enclosing p).map veil) (first : Bool) :
    (predicateFragments enclosing first (ps.map Predicate.veil)).map veil =
      (predicateFragments enclosing first ps).map veil := by
  induction ps generalizing first with
  | nil => rfl
  | cons p ps ih =>
      obtain ⟨hp, hps⟩ := List.forall_mem_cons.mp hp
      simp [predicateFragments, hp, ih hps]

theorem map_veil_draft :
    (∀ c : Criteria,
      (∀ existenceOnly, (draft existenceOnly c.veil).map veil = (draft existenceOnly c).map veil) ∧
      (participantFragments c.veil).map veil = (participantFragments c).map veil) ∧
    ∀ p : Predicate, ∀ enclosing,
      (predicateFragment enclosing p.veil).map veil = (predicateFragment enclosing p).map veil := by
  have hquery : ∀ existenceOnly c,
      (draft existenceOnly c.veil).map veil = (draft existenceOnly c).map veil →
      (draft existenceOnly c.veil).statement.map veil =
        (draft existenceOnly c).statement.map veil := by
    intro existenceOnly c h
    rw [← Clauses.statement_map faithful_veil, h, Clauses.statement_map faithful_veil]
  apply tree_induction
  case criteria =>
    intro node ps js hp hj
    have hfilter := map_veil_predicateFragments node.id fun p hmem => hp p hmem _
    have hjoins : (joinFragments (js.map Criteria.veil)).map veil = (joinFragments js).map veil := by
      simp only [joinFragments_eq_flatMap, List.flatMap_map, List.map_flatMap]
      exact List.flatMap_congr fun c hc => (hj c hc).2
    constructor
    · intro existenceOnly
      simp [draft, Clauses.map, projection_veil, hfilter, hjoins]
    · cases ps with
      | nil => simp [participantFragments]
      | cons p ps =>
          simp only [List.map_cons] at hfilter
          simp [participantFragments, hfilter, hjoins]
  case test =>
    intro head t enclosing
    have hoperator : t.veil.operator = t.operator := by cases t <;> rfl
    simp only [Predicate.veil, predicateFragment, hoperator]
    split
    · rfl
    · exact map_veil_testFragments enclosing head _ t
  case existence =>
    intro head negated query hq enclosing
    simp [Predicate.veil, predicateFragment, hquery true query (hq.1 true)]
  case subquery =>
    intro head op query hq enclosing
    simp [Predicate.veil, predicateFragment, hquery false query (hq.1 false)]
  case nested =>
    intro head negated children hc enclosing
    have hchildren := map_veil_predicateFragments enclosing fun p hmem => hc p hmem enclosing
    simp [predicateFragment, hchildren]

def Parameter.veil (p : Parameter) : Parameter :=
  { p with value := .null }

abbrev Piece.veil : Piece Parameter → Piece Parameter :=
  map Parameter.veil

theorem numberFrom_map_null (names : NumberedNames) (placed : Nat) (ps : List (Piece Value)) :
    numberFrom names placed (ps.map (Piece.map fun _ => .null)) =
      (numberFrom names placed ps).map Piece.veil := by
  induction ps generalizing placed with
  | nil => rfl
  | cons p ps ih =>
      cases p with
      | text s => exact congrArg _ (ih placed)
      | hole value => exact congrArg _ (ih (placed + 1))

theorem Clauses.number_map_null (names : NumberedNames) (c : Clauses (Piece Value)) :
    (c.map (Piece.map fun _ => .null)).number names = (c.number names).map Piece.veil := by
  simp only [number, map, Piece.length_holes_map, numberFrom_map_null]

namespace Fragment

variable (ctx : Context)

theorem failure?_veil (f : Fragment) : f.veil.failure? ctx = f.failure? ctx := by
  cases f <;> rfl

theorem piece_veil (f : Fragment) : f.veil.piece ctx = (f.piece ctx).map fun _ => .null := by
  cases f with
  | lead connective => cases connective <;> rfl
  | _ => rfl

theorem firstFailure?_map_veil (fs : List Fragment) :
    firstFailure? ctx (fs.map veil) = firstFailure? ctx fs := by
  rw [firstFailure?, List.findSome?_map]
  exact congrArg (List.findSome? · fs) (funext (failure?_veil ctx))

theorem boundBeforeFailure_map_veil (fs : List Fragment) :
    boundBeforeFailure ctx (fs.map veil) = boundBeforeFailure ctx fs := by
  have hbind : isBind ∘ veil = isBind := by
    funext f
    cases f <;> rfl
  have hfailure : (fun f : Fragment => (f.failure? ctx).isNone) ∘ veil =
      fun f => (f.failure? ctx).isNone := by
    funext f
    exact congrArg Option.isNone (failure?_veil ctx f)
  rw [boundBeforeFailure, List.takeWhile_map, List.countP_map, hbind, hfailure, boundBeforeFailure]

end Fragment

theorem placeDraft_map_veil (ctx : Context) (names : NumberedNames) (d : Clauses Fragment) :
    placeDraft ctx names (d.map veil) =
      ((placeDraft ctx names d).1.map (Clauses.map Piece.veil), (placeDraft ctx names d).2) := by
  have hpieces : (d.map veil).map (piece ctx) = (d.map (piece ctx)).map (Piece.map fun _ => .null) := by
    have hpiece : piece ctx ∘ veil = (Piece.map fun _ => .null) ∘ piece ctx := funext (piece_veil ctx)
    simp only [Clauses.map, List.map_map, hpiece]
  simp only [placeDraft, Clauses.bindingOrder_map, firstFailure?_map_veil, boundBeforeFailure_map_veil,
    hpieces, Clauses.number_map_null]
  cases firstFailure? ctx d.bindingOrder <;> rfl

namespace Compiled

structure Shown where
  select : String
  source : String
  filter : String
  group : String
  order : String
  window : Option Window
  statement : String
  countStatement : String
  names : List String
  shape : ResultShape

def shown (c : Compiled) : Shown where
  select := c.selectText
  source := c.sourceText
  filter := c.filterText
  group := c.groupText
  order := c.orderText
  window := c.window?
  statement := c.statement
  countStatement := c.countStatement
  names := c.bindings.names
  shape := c.shape

def veil (c : Compiled) : Compiled :=
  { c with clauses := c.clauses.map Piece.veil }

theorem shown_veil (c : Compiled) : c.veil.shown = c.shown := by
  have hwrite : ∀ parts, c.veil.write (parts.map Piece.veil) = c.write parts :=
    Piece.write_map fun _ => rfl
  have hstatement : c.veil.statementParts = c.statementParts.map Piece.veil :=
    Clauses.statement_map (Piece.faithful_map _) c.clauses
  have hcount : c.veil.countParts = c.countParts.map Piece.veil :=
    Clauses.countStatement_map (Piece.faithful_map _) c.distinct c.keepOrder c.clauses
  have hnames : c.veil.bindings.names = c.bindings.names := by
    have hholes : ∀ ps : List (Piece Parameter),
        (Piece.holes (ps.map Piece.veil)).map Parameter.name = (Piece.holes ps).map Parameter.name := by
      intro ps
      induction ps with
      | nil => rfl
      | cons p ps ih => cases p <;> simpa [Piece.map, Parameter.veil] using ih
    have hparameters := hholes c.clauses.bindingOrder
    rw [← Clauses.bindingOrder_map] at hparameters
    simp only [bindings, Bindings.names, List.map_map]
    exact hparameters
  have hselect : c.veil.selectText = c.selectText := hwrite _
  have hsource : c.veil.sourceText = c.sourceText := hwrite _
  have hfilter : c.veil.filterText = c.filterText := hwrite _
  have hgroup : c.veil.groupText = c.groupText := hwrite _
  have horder : c.veil.orderText = c.orderText := hwrite _
  simp only [shown, hselect, hsource, hfilter, hgroup, horder, statement, countStatement, hstatement,
    hcount, hwrite, hnames]
  rfl

end Compiled

theorem compiled_veil (c : Criteria) (style : PlaceholderStyle) :
    c.veil.compiled style = c.compiled style := by
  funext clauses
  rw [Criteria.compiled, Criteria.compiled, node_veil]

theorem map_shown_compiled (c : Criteria) (style : PlaceholderStyle)
    (result : Except CompileError (Clauses (Piece Parameter))) :
    (result.map (c.compiled style)).map Compiled.shown =
      ((result.map (Clauses.map Piece.veil)).map (c.compiled style)).map Compiled.shown := by
  cases result with
  | error e => rfl
  | ok clauses => exact congrArg Except.ok (c.compiled style clauses).shown_veil.symm

theorem placeDraft_veil (ctx : Context) (names : NumberedNames) (c : Criteria) :
    (placeDraft ctx names c.veil.statementDraft).1.map (Clauses.map Piece.veil) =
        (placeDraft ctx names c.statementDraft).1.map (Clauses.map Piece.veil) ∧
      (placeDraft ctx names c.veil.statementDraft).2 = (placeDraft ctx names c.statementDraft).2 := by
  have hdraft : c.veil.statementDraft.map veil = c.statementDraft.map veil :=
    (map_veil_draft.1 c).1 false
  have hveiled := placeDraft_map_veil ctx names c.veil.statementDraft
  rw [hdraft, placeDraft_map_veil] at hveiled
  obtain ⟨hresult, hnames⟩ := Prod.mk.inj hveiled
  exact ⟨hresult.symm, hnames.symm⟩

theorem shown_compile_veil (s : Scope) (c : Criteria) :
    (s.compile c.veil).1.map Compiled.shown = (s.compile c).1.map Compiled.shown ∧
      (s.compile c.veil).2 = (s.compile c).2 := by
  have hscope : c.veil.scope = c.scope := by rw [Criteria.scope, node_veil, Criteria.scope]
  cases hs : s.frozen with
  | true => simp [Scope.compile_of_frozen hs]
  | false =>
      rw [Scope.compile_of_unfrozen hs, Scope.compile_of_unfrozen hs, Scope.compileHeld,
        Scope.compileHeld, hscope, references_veil.1 c]
      rcases drawAliases c.scope [] s.held c.references with ⟨result, t⟩
      cases result with
      | error e => exact ⟨rfl, rfl⟩
      | ok =>
          obtain ⟨hresult, hnames⟩ := placeDraft_veil (t.context c.references) t.parameters c
          constructor
          · simp only [compiled_veil]
            rw [map_shown_compiled, hresult, ← map_shown_compiled]
          · simp only [hnames]

theorem compile_blind_to_payload {c d : Criteria} (h : c.veil = d.veil) (s : Scope) :
    (s.compile c).1.map Compiled.shown = (s.compile d).1.map Compiled.shown ∧
      (s.compile c).2 = (s.compile d).2 := by
  obtain ⟨hshown, hscope⟩ := shown_compile_veil s c
  obtain ⟨hshown', hscope'⟩ := shown_compile_veil s d
  rw [← hshown, ← hscope, h, hshown', hscope']
  exact ⟨rfl, rfl⟩

def noted (note : Value) : Criteria :=
  .mk { scope := ⟨0⟩, id := ⟨0⟩, entity := { name := "Order", table := "orders" }, parent := none }
    [.test { matched := .immediate, target := some (.raw "note = \x7b0\x7d") }
      (.template { positional := [note] } none)] []

def notedScope : Scope :=
  { Scope.fresh {} {} with slots := [{ entity := { name := "Order", table := "orders" }, parent := none }] }

theorem noted_blind_to_quoted_text :
    let plain := notedScope.compile (noted (.text "late"))
    let quoted := notedScope.compile (noted (.text "' OR \x7b0\x7d = '"))
    plain.1.map Compiled.shown = quoted.1.map Compiled.shown ∧ plain.2 = quoted.2 ∧
      (quoted.1.map Compiled.statement).toOption = some "SELECT * FROM orders t1 WHERE note = :p1" := by
  have hveil : (noted (.text "late")).veil = (noted (.text "' OR \x7b0\x7d = '")).veil := rfl
  obtain ⟨hshown, hscope⟩ := compile_blind_to_payload hveil notedScope
  exact ⟨hshown, hscope, by decide⟩

end QueryCriteria
