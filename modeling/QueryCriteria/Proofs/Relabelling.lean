import QueryCriteria.Compile.Basic
import QueryCriteria.Proofs.Draft
import QueryCriteria.Proofs.References

namespace QueryCriteria

structure Relabelling where
  handle : CriteriaId → CriteriaId
  parent : CriteriaId → CriteriaId

def Relabelling.all (r : CriteriaId → CriteriaId) : Relabelling :=
  ⟨r, r⟩

def Node.relabel (ρ : Relabelling) (n : Node) : Node :=
  { n with id := ρ.handle n.id, parent := n.parent.map ρ.parent }

def Predicate.Head.relabel (ρ : Relabelling) (h : Head) : Head :=
  { h with owner := h.owner.map ρ.handle }

def Test.relabel (ρ : Relabelling) : Test → Test
  | .columnEqual other => .columnEqual { other with criteria := ρ.handle other.criteria }
  | t => t

mutual
def Criteria.relabel (ρ : Relabelling) : Criteria → Criteria
  | .mk node ps js => .mk (node.relabel ρ) (relabelPredicates ρ ps) (relabelJoins ρ js)

def relabelJoins (ρ : Relabelling) : List Criteria → List Criteria
  | [] => []
  | c :: cs => c.relabel ρ :: relabelJoins ρ cs

def Predicate.relabel (ρ : Relabelling) : Predicate → Predicate
  | .test head t => .test (head.relabel ρ) (t.relabel ρ)
  | .existence head negated query => .existence (head.relabel ρ) negated (query.relabel ρ)
  | .subquery head op query => .subquery (head.relabel ρ) op (query.relabel ρ)
  | .nested head negated children => .nested (head.relabel ρ) negated (relabelPredicates ρ children)

def relabelPredicates (ρ : Relabelling) : List Predicate → List Predicate
  | [] => []
  | p :: ps => p.relabel ρ :: relabelPredicates ρ ps
end

theorem relabelPredicates_eq_map (ρ : Relabelling) (ps : List Predicate) :
    relabelPredicates ρ ps = ps.map (Predicate.relabel ρ) := by
  induction ps with
  | nil => rfl
  | cons p ps ih => simp [relabelPredicates, ih]

theorem relabelJoins_eq_map (ρ : Relabelling) (js : List Criteria) :
    relabelJoins ρ js = js.map (Criteria.relabel ρ) := by
  induction js with
  | nil => rfl
  | cons c cs ih => simp [relabelJoins, ih]

section Tree

variable (ρ : Relabelling)

@[simp]
theorem relabel_mk (node : Node) (ps : List Predicate) (js : List Criteria) :
    (Criteria.mk node ps js).relabel ρ =
      .mk (node.relabel ρ) (ps.map (Predicate.relabel ρ)) (js.map (Criteria.relabel ρ)) := by
  rw [Criteria.relabel, relabelPredicates_eq_map, relabelJoins_eq_map]

@[simp]
theorem relabel_test (head : Predicate.Head) (t : Test) :
    (Predicate.test head t).relabel ρ = .test (head.relabel ρ) (t.relabel ρ) := by
  rw [Predicate.relabel]

@[simp]
theorem relabel_existence (head : Predicate.Head) (negated : Bool) (query : Criteria) :
    (Predicate.existence head negated query).relabel ρ =
      .existence (head.relabel ρ) negated (query.relabel ρ) := by
  rw [Predicate.relabel]

@[simp]
theorem relabel_subquery (head : Predicate.Head) (op : SubqueryOp) (query : Criteria) :
    (Predicate.subquery head op query).relabel ρ =
      .subquery (head.relabel ρ) op (query.relabel ρ) := by
  rw [Predicate.relabel]

@[simp]
theorem relabel_nested (head : Predicate.Head) (negated : Bool) (children : List Predicate) :
    (Predicate.nested head negated children).relabel ρ =
      .nested (head.relabel ρ) negated (children.map (Predicate.relabel ρ)) := by
  rw [Predicate.relabel, relabelPredicates_eq_map]

@[simp]
theorem node_relabel (c : Criteria) : (c.relabel ρ).node = c.node.relabel ρ := by
  cases c
  simp [Criteria.node]

@[simp]
theorem head_relabel (p : Predicate) : (p.relabel ρ).head = p.head.relabel ρ := by
  cases p <;> simp [Predicate.head]

theorem relabel_identity :
    (∀ c : Criteria, c.relabel (.all fun id => id) = c) ∧
    ∀ p : Predicate, p.relabel (.all fun id => id) = p := by
  have hhead : ∀ head : Predicate.Head, head.relabel (.all fun id => id) = head := by
    intro head
    simp [Predicate.Head.relabel, Relabelling.all]
  apply tree_induction
  case criteria =>
    intro node ps js hp hj
    rw [relabel_mk, List.map_congr_left hp, List.map_congr_left hj]
    simp [Node.relabel, Relabelling.all]
  case test =>
    intro head t
    rw [relabel_test, hhead]
    cases t <;> rfl
  case existence => simp +contextual [hhead]
  case subquery => simp +contextual [hhead]
  case nested =>
    intro head negated children hc
    rw [relabel_nested, hhead, List.map_congr_left hc, List.map_id']

end Tree

def Reference.rename (r : CriteriaId → CriteriaId) : Reference → Reference
  | .source scope id qualify joined => .source scope (r id) qualify joined
  | .owner id => .owner (r id)
  | .correlated id => .correlated (r id)

theorem references_head_relabel (ρ : Relabelling) (head : Predicate.Head) :
    (head.relabel ρ).references = head.references.map (Reference.rename ρ.handle) := by
  cases h : head.owner <;>
    simp [Predicate.Head.references, Predicate.Head.relabel, h, Reference.rename]

theorem references_test_relabel (ρ : Relabelling) (t : Test) :
    (t.relabel ρ).references = t.references.map (Reference.rename ρ.handle) := by
  cases t <;> rfl

theorem references_relabel (ρ : Relabelling) :
    (∀ c : Criteria, (c.relabel ρ).references = c.references.map (Reference.rename ρ.handle)) ∧
    ∀ p : Predicate, (p.relabel ρ).references = p.references.map (Reference.rename ρ.handle) := by
  have hhead := references_head_relabel ρ
  apply tree_induction
  case criteria =>
    intro node ps js hp hj
    simp only [relabel_mk, references_mk, List.map_cons, List.map_append, List.map_flatMap,
      List.flatMap_map, List.flatMap_congr hp, List.flatMap_congr hj]
    simp [Criteria.ownReference, Reference.rename, Criteria.scope, Criteria.id, Criteria.node,
      Criteria.joins, Node.relabel]
  case test =>
    intro head t
    simp [Predicate.references, hhead, references_test_relabel]
  case existence =>
    intro head negated query hq
    simp [Predicate.references, hhead, hq]
  case subquery =>
    intro head op query hq
    simp [Predicate.references, hhead, hq]
  case nested =>
    intro head negated children hc
    simp only [relabel_nested, references_nested, hhead, List.map_append, List.map_flatMap,
      List.flatMap_map, List.flatMap_congr hc]

section Fragments

def ColumnUse.rename (r : CriteriaId → CriteriaId) (use : ColumnUse) : ColumnUse :=
  { use with owner := r use.owner }

def Fragment.rename (r : CriteriaId → CriteriaId) : Fragment → Fragment
  | .keyword text use => .keyword text (use.rename r)
  | .column use => .column (use.rename r)
  | .source id table => .source (r id) table
  | .rejectEmpty use => .rejectEmpty (use.rename r)
  | f => f

theorem Fragment.faithful_rename (r : CriteriaId → CriteriaId) : SqlPart.Faithful (Fragment.rename r) where
  sql _ := rfl
  heading := Fragment.heading_map (fun _ => rfl) (fun _ _ => rfl) (fun f => by cases f <;> rfl)
    fun f => by cases f <;> rfl
  isEmpty f := by cases f <;> rfl

theorem map_intercalate {α β : Type} (f : α → β) (sep : α) (items : List (List α)) :
    ([sep].intercalate items).map f = [f sep].intercalate (items.map (List.map f)) := by
  induction items with
  | nil => rfl
  | cons item rest ih =>
      cases rest with
      | nil => simp [List.intercalate]
      | cons next rest =>
          simp only [List.intercalate, List.map_cons, List.intersperse_cons_cons, List.flatten_cons,
            List.map_append, List.map_nil] at ih ⊢
          rw [ih]

variable (r : CriteriaId → CriteriaId)

theorem rename_listed (items : List (List Fragment)) :
    (listed items).map (Fragment.rename r) = listed (items.map (List.map (Fragment.rename r))) :=
  map_intercalate _ _ items

theorem rename_labelled (parts : List Fragment) (label : Option String) :
    (labelled parts label).map (Fragment.rename r) =
      labelled (parts.map (Fragment.rename r)) label := by
  cases label <;> simp [labelled, Fragment.rename]

end Fragments

section Draft

variable (ρ : Relabelling)

theorem selectionItem_relabel (n : Node) (s : Selection) :
    (n.relabel ρ).selectionItem s = (n.selectionItem s).map (Fragment.rename ρ.handle) := by
  cases s with
  | column target label =>
      simp only [Node.selectionItem, rename_labelled]
      rfl
  | native sql label =>
      simp only [Node.selectionItem, rename_labelled]
      rfl
  | aggregate func target distinct label =>
      simp only [Node.selectionItem, rename_labelled]
      cases target <;> rfl

theorem groups_relabel (n : Node) :
    listed ((n.relabel ρ).groups.map (n.relabel ρ).groupItem) =
      (listed (n.groups.map n.groupItem)).map (Fragment.rename ρ.handle) := by
  rw [rename_listed, List.map_map]
  refine congrArg listed (List.map_congr_left fun g _ => ?_)
  cases g <;> rfl

theorem orders_relabel (n : Node) :
    listed ((n.relabel ρ).orders.map (n.relabel ρ).orderItem) =
      (listed (n.orders.map n.orderItem)).map (Fragment.rename ρ.handle) := by
  rw [rename_listed, List.map_map]
  refine congrArg listed (List.map_congr_left fun o _ => ?_)
  cases o <;> rfl

theorem items_relabel (n : Node) :
    (n.relabel ρ).items = n.items.map (List.map (Fragment.rename ρ.handle)) := by
  have hdefault : (n.relabel ρ).defaultItems =
      n.defaultItems.map (List.map (Fragment.rename ρ.handle)) := by
    have hselects : (n.relabel ρ).selectsDefault = n.selectsDefault := rfl
    unfold Node.defaultItems
    rw [hselects]
    split
    · rw [List.map_map]
      refine List.map_congr_left fun column _ => ?_
      exact (rename_labelled ρ.handle [n.column (.resolved column)] _).symm
    · rfl
  have hselections : n.selections.map (n.relabel ρ).selectionItem =
      (n.selections.map n.selectionItem).map (List.map (Fragment.rename ρ.handle)) := by
    rw [List.map_map]
    exact List.map_congr_left fun s _ => selectionItem_relabel ρ n s
  rw [Node.items, Node.items, List.map_append, ← hdefault, ← hselections]
  rfl

theorem fetchedItems_relabel (c : Criteria) :
    fetchedItems (c.relabel ρ) = (fetchedItems c).map (List.map (Fragment.rename ρ.handle)) := by
  revert c
  refine (tree_induction (P := fun _ => True) ?_ ?_ ?_ ?_ ?_).1
  case refine_1 =>
    intro node ps js _ hj
    rw [relabel_mk, fetchedItems, fetchedItems, allFetchedItems_eq_flatMap, allFetchedItems_eq_flatMap,
      List.flatMap_map, List.map_append, List.map_flatMap, List.flatMap_congr hj, items_relabel]
    have hfetch : (node.relabel ρ).join.fetch = node.join.fetch := rfl
    rw [hfetch]
    cases node.join.fetch <;> rfl
  all_goals simp

theorem projection_relabel (n : Node) (js : List Criteria) :
    projection (n.relabel ρ) (js.map (Criteria.relabel ρ)) =
      (projection n js).map (Fragment.rename ρ.handle) := by
  have hitems : (n.relabel ρ).items ++ allFetchedItems (js.map (Criteria.relabel ρ)) =
      (n.items ++ allFetchedItems js).map (List.map (Fragment.rename ρ.handle)) := by
    simp only [allFetchedItems_eq_flatMap, List.flatMap_map, fetchedItems_relabel, items_relabel,
      List.map_append, List.map_flatMap]
  have hdistinct : (n.relabel ρ).flags = n.flags := rfl
  simp only [projection, hitems, hdistinct, List.isEmpty_map, ← rename_listed]
  split <;> split <;> rfl

theorem boundList_rename (r : CriteriaId → CriteriaId) (values : List Value) :
    (boundList values).map (Fragment.rename r) = boundList values := by
  rw [boundList, map_intercalate, List.map_map]
  rfl

theorem argumentFragments_rename (r : CriteriaId → CriteriaId) (template : String)
    (token : Template.Token) (argument : Option Value) :
    (argumentFragments template token argument).map (Fragment.rename r) =
      argumentFragments template token argument := by
  unfold argumentFragments
  split
  · rfl
  · rfl
  · exact boundList_rename r _
  · rfl

theorem templateFragments_rename (r : CriteriaId → CriteriaId) (template : String) (args : TemplateArgs)
    (column : Option ColumnUse) :
    (templateFragments template args column).map (Fragment.rename r) =
      templateFragments template args (column.map (ColumnUse.rename r)) := by
  unfold templateFragments
  split
  · rfl
  · rw [List.map_flatMap]
    refine List.flatMap_congr fun segment _ => ?_
    cases segment with
    | text s => rfl
    | token token =>
        cases token with
        | positional index => exact argumentFragments_rename r _ _ _
        | named name => exact argumentFragments_rename r _ _ _
        | column => cases column <;> rfl

theorem columnUse_relabel (enclosing : CriteriaId) (head : Predicate.Head) (target : Target) :
    (head.relabel ρ).columnUse (ρ.handle enclosing) target =
      (head.columnUse enclosing target).rename ρ.handle := by
  cases h : head.owner <;>
    simp [Predicate.Head.columnUse, Predicate.Head.relabel, ColumnUse.rename, h]

theorem testFragments_relabel (enclosing : CriteriaId) (head : Predicate.Head) (target : Target)
    (t : Test) :
    testFragments (ρ.handle enclosing) (head.relabel ρ) target (t.relabel ρ) =
      (testFragments enclosing head target t).map (Fragment.rename ρ.handle) := by
  cases t with
  | range op values =>
      simp only [testFragments, Test.relabel, columnUse_relabel]
      split
      · rfl
      · simp [boundList_rename, Fragment.rename]
  | fuzzy op text wildcard escape =>
      simp only [testFragments, Test.relabel, columnUse_relabel]
      cases escape <;> rfl
  | template args column =>
      simp only [testFragments, Test.relabel, templateFragments_rename, Option.map_map]
      cases column <;> simp [columnUse_relabel]
  | _ =>
      simp only [testFragments, Test.relabel, columnUse_relabel]
      rfl

theorem subjectFragment_relabel (enclosing : CriteriaId) (head : Predicate.Head) (operator : String) :
    subjectFragment (ρ.handle enclosing) (head.relabel ρ) operator =
      (subjectFragment enclosing head operator).rename ρ.handle := by
  have htarget : (head.relabel ρ).target = head.target := rfl
  unfold subjectFragment
  rw [htarget]
  cases head.target with
  | none => rfl
  | some target => exact congrArg Fragment.column (columnUse_relabel ρ enclosing head target)

theorem predicateFragments_relabel (enclosing : CriteriaId) {ps : List Predicate}
    (hp : ∀ p ∈ ps, predicateFragment (ρ.handle enclosing) (p.relabel ρ) =
      (predicateFragment enclosing p).map (Fragment.rename ρ.handle)) (first : Bool) :
    predicateFragments (ρ.handle enclosing) first (ps.map (Predicate.relabel ρ)) =
      (predicateFragments enclosing first ps).map (Fragment.rename ρ.handle) := by
  induction ps generalizing first with
  | nil => rfl
  | cons p ps ih =>
      obtain ⟨hp, hps⟩ := List.forall_mem_cons.mp hp
      have hconnective : (p.head.relabel ρ).connective = p.head.connective := rfl
      simp only [List.map_cons, predicateFragments, hp, ih hps, head_relabel, hconnective,
        List.cons_append, List.map_append]
      rfl

theorem draft_relabel :
    (∀ c : Criteria,
      (∀ existenceOnly, draft existenceOnly (c.relabel ρ) =
        (draft existenceOnly c).map (Fragment.rename ρ.handle)) ∧
      participantFragments (c.relabel ρ) =
        (participantFragments c).map (Fragment.rename ρ.handle)) ∧
    ∀ p : Predicate, ∀ enclosing, predicateFragment (ρ.handle enclosing) (p.relabel ρ) =
      (predicateFragment enclosing p).map (Fragment.rename ρ.handle) := by
  have hstatement : ∀ existenceOnly c,
      draft existenceOnly (c.relabel ρ) = (draft existenceOnly c).map (Fragment.rename ρ.handle) →
      (draft existenceOnly (c.relabel ρ)).statement =
        (draft existenceOnly c).statement.map (Fragment.rename ρ.handle) := by
    intro existenceOnly c h
    rw [h, Clauses.statement_map (Fragment.faithful_rename _)]
  apply tree_induction
  case criteria =>
    intro node ps js hp hj
    have hfilter := predicateFragments_relabel ρ node.id fun p hmem => hp p hmem _
    have hjoins : joinFragments (js.map (Criteria.relabel ρ)) =
        (joinFragments js).map (Fragment.rename ρ.handle) := by
      simp only [joinFragments_eq_flatMap, List.flatMap_map, List.map_flatMap]
      exact List.flatMap_congr fun c hc => (hj c hc).2
    constructor
    · intro existenceOnly
      rw [relabel_mk, draft, draft, projection_relabel, hjoins, groups_relabel, orders_relabel]
      have hselections : (node.relabel ρ).selections = node.selections := rfl
      simp only [Clauses.map, Clauses.mk.injEq, hselections]
      refine ⟨?_, rfl, hfilter true, trivial, trivial, rfl⟩
      split <;> rfl
    · rw [relabel_mk, participantFragments, participantFragments, hjoins, List.isEmpty_map]
      split
      · rfl
      · have hfilter : predicateFragments (node.relabel ρ).id true (ps.map (Predicate.relabel ρ)) =
            (predicateFragments node.id true ps).map (Fragment.rename ρ.handle) := hfilter true
        rw [hfilter]
        simp only [List.map_append, List.map_cons]
        rfl
  case test =>
    intro head t enclosing
    have hoperator : (t.relabel ρ).operator = t.operator := by cases t <;> rfl
    have htarget : (head.relabel ρ).target = head.target := rfl
    rw [relabel_test, predicateFragment, predicateFragment, hoperator, htarget]
    cases head.target with
    | none => rfl
    | some target => exact testFragments_relabel ρ enclosing head target t
  case existence =>
    intro head negated query hq enclosing
    rw [relabel_existence, predicateFragment, predicateFragment, hstatement true query (hq.1 true)]
    simp only [List.map_append, List.map_cons]
    rfl
  case subquery =>
    intro head op query hq enclosing
    rw [relabel_subquery, predicateFragment, predicateFragment, hstatement false query (hq.1 false),
      subjectFragment_relabel]
    simp only [List.map_append, List.map_cons]
    rfl
  case nested =>
    intro head negated children hc enclosing
    have hchildren := predicateFragments_relabel ρ enclosing fun p hmem => hc p hmem enclosing
    rw [relabel_nested, predicateFragment, predicateFragment, hchildren]
    simp only [List.map_append, List.map_cons]
    rfl

theorem statementDraft_relabel (c : Criteria) :
    (c.relabel ρ).statementDraft = c.statementDraft.map (Fragment.rename ρ.handle) :=
  ((draft_relabel ρ).1 c).1 false

end Draft

def Context.comap (ctx : Context) (r : CriteriaId → CriteriaId) : Context where
  alias? id := ctx.alias? (r id)
  qualifies id := ctx.qualifies (r id)

theorem Fragment.piece_rename (r : CriteriaId → CriteriaId) (ctx : Context) (f : Fragment) :
    (f.rename r).piece ctx = f.piece (ctx.comap r) := by
  cases f with
  | lead connective => cases connective <;> rfl
  | _ => rfl

section Qualification

variable {r : CriteriaId → CriteriaId}

theorem qualifies_mode_rename (mode : QualifyMode) (refs : List Reference) :
    mode.qualifies (refs.map (Reference.rename r)) = mode.qualifies refs := by
  have hcorrelates : Reference.correlates ∘ Reference.rename r = Reference.correlates := by
    funext reference
    cases reference <;> rfl
  cases mode <;> simp [QualifyMode.qualifies, List.any_map, hcorrelates]

theorem override?_rename (reference : Reference) :
    (reference.rename r).override? = reference.override?.map fun (id, qualify) => (r id, qualify) := by
  cases reference with
  | source scope id qualify joined => cases qualify <;> rfl
  | owner id => rfl
  | correlated id => rfl

theorem qualifies_rename (mode : QualifyMode) {refs : List Reference} {id : CriteriaId}
    (h : ∀ table ∈ tables refs, r table = r id → table = id) :
    qualifies mode (refs.map (Reference.rename r)) (r id) = qualifies mode refs id := by
  have hlookup : ((refs.map (Reference.rename r)).filterMap Reference.override?).lookup (r id) =
      (refs.filterMap Reference.override?).lookup id := by
    -- The renaming need not be injective, as long as it takes no other table to where `id` goes.
    induction refs with
    | nil => rfl
    | cons reference refs ih =>
        have ih := ih fun table htable => h table (by simp [htable])
        rw [List.map_cons, List.filterMap_cons, List.filterMap_cons, override?_rename]
        cases hoverride : reference.override? with
        | none => exact ih
        | some entry =>
            obtain ⟨table, qualify⟩ := entry
            have htable : table ∈ tables (reference :: refs) := by
              cases reference with
              | source scope id' qualify' joined =>
                  cases qualify' <;> simp_all [Reference.override?, Reference.table?]
              | owner id' => cases hoverride
              | correlated id' => cases hoverride
            have heq : (r id == r table) = (id == table) := by
              rw [Bool.eq_iff_iff, beq_iff_eq, beq_iff_eq]
              exact ⟨fun hr => (h table htable hr.symm).symm, fun hid => congrArg r hid⟩
            simp only [Option.map_some, List.lookup_cons, heq]
            cases id == table with
            | true => rfl
            | false => exact ih
  rw [qualifies, qualifies, hlookup, qualifies_mode_rename]

end Qualification

end QueryCriteria
