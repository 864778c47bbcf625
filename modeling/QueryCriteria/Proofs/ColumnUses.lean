import QueryCriteria.Compile.Basic
import QueryCriteria.Proofs.Conditions
import QueryCriteria.Proofs.Draft

namespace QueryCriteria

open Fragment Template

namespace Node

def use (n : Node) (target : Target) : ColumnUse where
  owner := n.id
  target := target

def defaultTargets (n : Node) : List Target :=
  if n.selectsDefault then (n.entity.columns.filter fun c => !n.ignored.has c.property).map .resolved
  else []

def itemUses (n : Node) : List ColumnUse :=
  (n.defaultTargets ++ n.selections.filterMap Selection.target?).map n.use

def groupUses (n : Node) : List ColumnUse :=
  (n.groups.filterMap Grouping.target?).map n.use

def orderUses (n : Node) : List ColumnUse :=
  (n.orders.filterMap OrderItem.target?).map n.use

end Node

def ColumnSide.use (side : ColumnSide) : ColumnUse where
  owner := side.criteria
  tableAlias := side.tableAlias
  target := side.target
  correlated := true

def columnTokens (template : String) : Nat :=
  match parse template with
  | .error _ => 0
  | .ok segments => segments.count (.token .column)

def Test.columnUses (enclosing : CriteriaId) (head : Predicate.Head) (target : Target) :
    Test → List ColumnUse
  | .template _ subject =>
      subject.toList.flatMap fun t => .replicate (columnTokens target.sqlName) (head.columnUse enclosing t)
  | .columnEqual other => [{ head.columnUse enclosing target with correlated := true }, other.use]
  | _ => [head.columnUse enclosing target]

mutual
def Criteria.fetchedUses : Criteria → List ColumnUse
  | .mk node _ joins => (if node.join.fetch then node.itemUses else []) ++ allFetchedUses joins

def allFetchedUses : List Criteria → List ColumnUse
  | [] => []
  | c :: cs => c.fetchedUses ++ allFetchedUses cs
end

mutual
def Criteria.columnUses (existenceOnly : Bool) : Criteria → List ColumnUse
  | .mk node predicates joins =>
      (if existenceOnly && node.selections.isEmpty then [] else node.itemUses ++ allFetchedUses joins) ++
        joinUses joins ++ conditionUses node.id predicates ++ node.groupUses ++ node.orderUses

def Criteria.participantUses : Criteria → List ColumnUse
  | .mk node predicates joins => conditionUses node.id predicates ++ joinUses joins

def joinUses : List Criteria → List ColumnUse
  | [] => []
  | c :: cs => c.participantUses ++ joinUses cs

def Predicate.columnUses (enclosing : CriteriaId) : Predicate → List ColumnUse
  | .test head t => head.target.toList.flatMap fun target => t.columnUses enclosing head target
  | .existence _ _ query => query.columnUses true
  | .subquery head _ query =>
      head.target.toList.map (head.columnUse enclosing) ++ query.columnUses false
  | .nested _ _ children => conditionUses enclosing children

def conditionUses (enclosing : CriteriaId) : List Predicate → List ColumnUse
  | [] => []
  | p :: ps => p.columnUses enclosing ++ conditionUses enclosing ps
end

theorem allFetchedUses_eq_flatMap (js : List Criteria) :
    allFetchedUses js = js.flatMap Criteria.fetchedUses := by
  induction js with
  | nil => rfl
  | cons c cs ih => simp [allFetchedUses, ih]

theorem joinUses_eq_flatMap (js : List Criteria) : joinUses js = js.flatMap Criteria.participantUses := by
  induction js with
  | nil => rfl
  | cons c cs ih => simp [joinUses, ih]

theorem conditionUses_eq_flatMap (enclosing : CriteriaId) (ps : List Predicate) :
    conditionUses enclosing ps = ps.flatMap (·.columnUses enclosing) := by
  induction ps with
  | nil => rfl
  | cons p ps ih => simp [conditionUses, ih]

namespace Fragment

theorem blind_column? : SqlPart.Blind column? where
  sql _ := rfl
  heading text parts := by
    rcases heading_cases text parts with heq | ⟨use, -, -, heq⟩ <;> exact congrArg column? heq
  empty f hf := by
    cases f with
    | column use => cases hf
    | _ => rfl

end Fragment

section Items

theorem column?_labelled (parts : List Fragment) (label : Option String) :
    (labelled parts label).filterMap column? = parts.filterMap column? := by
  cases label with
  | none => rfl
  | some label => simp [labelled, column?]

theorem column?_listed (items : List (List Fragment)) :
    (listed items).filterMap column? = items.flatMap (·.filterMap column?) :=
  filterMap_intercalate rfl items

namespace Node

variable (n : Node)

theorem column?_selectionItem (s : Selection) :
    (n.selectionItem s).filterMap column? = s.target?.toList.map n.use := by
  cases s with
  | column target label => exact column?_labelled _ _
  | native sql label => exact column?_labelled _ _
  | aggregate func target distinct label =>
      refine (column?_labelled _ _).trans ?_
      cases target <;> rfl

theorem column?_items : n.items.flatMap (·.filterMap column?) = n.itemUses := by
  have hdefault : n.defaultItems.flatMap (·.filterMap column?) = n.defaultTargets.map n.use := by
    unfold defaultItems defaultTargets
    split
    · rw [List.flatMap_map, List.map_map, List.map_eq_flatMap]
      exact List.flatMap_congr fun column _ => column?_labelled _ _
    · rfl
  have hselections : (n.selections.map n.selectionItem).flatMap (·.filterMap column?) =
      (n.selections.filterMap Selection.target?).map n.use := by
    rw [List.flatMap_map, List.filterMap_eq_flatMap_toList, List.map_flatMap]
    exact List.flatMap_congr fun s _ => n.column?_selectionItem s
  rw [items, List.flatMap_append, hdefault, hselections, itemUses, List.map_append]

theorem column?_groups : (listed (n.groups.map n.groupItem)).filterMap column? = n.groupUses := by
  rw [column?_listed, List.flatMap_map, groupUses, List.filterMap_eq_flatMap_toList, List.map_flatMap]
  refine List.flatMap_congr fun g _ => ?_
  cases g <;> rfl

theorem column?_orders : (listed (n.orders.map n.orderItem)).filterMap column? = n.orderUses := by
  rw [column?_listed, List.flatMap_map, orderUses, List.filterMap_eq_flatMap_toList, List.map_flatMap]
  refine List.flatMap_congr fun o _ => ?_
  cases o <;> rfl

end Node

theorem column?_projection {n : Node} {js : List Criteria}
    (hjs : ∀ c ∈ js, (fetchedItems c).flatMap (·.filterMap column?) = c.fetchedUses) :
    (projection n js).filterMap column? = n.itemUses ++ allFetchedUses js := by
  have hitems : (n.items ++ allFetchedItems js).flatMap (·.filterMap column?) =
      n.itemUses ++ allFetchedUses js := by
    rw [List.flatMap_append, n.column?_items, allFetchedItems_eq_flatMap, List.flatMap_assoc,
      List.flatMap_congr hjs, allFetchedUses_eq_flatMap]
  have hlist : (if (n.items ++ allFetchedItems js).isEmpty then [Fragment.sql "*"]
      else listed (n.items ++ allFetchedItems js)).filterMap column? = n.itemUses ++ allFetchedUses js := by
    split
    next hempty =>
      rw [List.isEmpty_iff.mp hempty] at hitems
      exact hitems
    next => rw [column?_listed, hitems]
  unfold projection
  split
  · exact hlist
  · exact hlist

end Items

section Tests

variable {enclosing : CriteriaId} {head : Predicate.Head}

theorem column?_boundList (values : List Value) : (boundList values).filterMap column? = [] := by
  rw [filterMap_boundList rfl]
  exact List.filterMap_eq_nil_iff.mpr fun _ _ => rfl

theorem column?_argumentFragments (template : String) (token : Token) (argument : Option Value) :
    (argumentFragments template token argument).filterMap column? = [] := by
  unfold argumentFragments
  split
  · rfl
  · rfl
  · exact column?_boundList _
  · rfl

theorem column?_templateFragments (template : String) (args : TemplateArgs) (subject : Option ColumnUse) :
    (templateFragments template args subject).filterMap column? =
      subject.toList.flatMap fun use => .replicate (columnTokens template) use := by
  unfold templateFragments columnTokens
  cases parse template with
  | error fault => cases subject <;> rfl
  | ok segments =>
      have hsegment : ∀ segment, (segmentFragments template args subject segment).filterMap column? =
          if segment = .token .column then subject.toList else [] := by
        intro segment
        cases segment with
        | text s => rfl
        | token token =>
            cases token with
            | positional index => exact column?_argumentFragments _ _ _
            | named name => exact column?_argumentFragments _ _ _
            | column => cases subject <;> rfl
      simp only [List.filterMap_flatMap, hsegment]
      induction segments with
      | nil => cases subject <;> rfl
      | cons segment rest ih =>
          rw [List.flatMap_cons, ih, List.count_cons]
          by_cases hcolumn : segment = .token .column
          · cases subject <;> simp [hcolumn, List.replicate_succ]
          · simp [hcolumn]

theorem column?_escapeClause (escape : Option Char) : (escapeClause escape).filterMap column? = [] := by
  cases escape <;> rfl

theorem column?_testFragments {target : Target} {t : Test}
    (h : Accepted (testFragments enclosing head target t)) :
    (testFragments enclosing head target t).filterMap column? = t.columnUses enclosing head target := by
  cases t with
  | range op values =>
      simp only [testFragments] at h ⊢
      by_cases hempty : values.isEmpty = true
      · simp [hempty, Within, isReject] at h
      · simp [hempty, List.filterMap_cons, column?, column?_boundList, Test.columnUses]
  | fuzzy op text wildcard escape =>
      simp [testFragments, List.filterMap_cons, column?, column?_escapeClause, Test.columnUses]
  | template args subject =>
      refine (column?_templateFragments _ _ _).trans ?_
      cases subject <;> rfl
  | _ => rfl

theorem column?_test {t : Test} (h : Accepted (predicateFragment enclosing (.test head t))) :
    (predicateFragment enclosing (.test head t)).filterMap column? =
      (Predicate.test head t).columnUses enclosing := by
  simp only [predicateFragment, Predicate.columnUses] at h ⊢
  cases htarget : head.target with
  | none => simp [htarget, Within, isReject] at h
  | some target =>
      simp only [htarget] at h
      simp only [column?_testFragments h, Option.toList_some, List.flatMap_singleton]

end Tests

section Tree

theorem column?_predicateFragments {enclosing : CriteriaId} {ps : List Predicate}
    (hp : ∀ p ∈ ps, (predicateFragment enclosing p).filterMap column? = p.columnUses enclosing)
    (first : Bool) :
    (predicateFragments enclosing first ps).filterMap column? = conditionUses enclosing ps := by
  induction ps generalizing first with
  | nil => rfl
  | cons p ps ih =>
      obtain ⟨hp, hps⟩ := List.forall_mem_cons.mp hp
      rw [predicateFragments, List.cons_append, List.filterMap_cons_none rfl, List.filterMap_append, hp,
        ih hps, conditionUses]

theorem column?_joinFragments {js : List Criteria}
    (hj : ∀ c ∈ js, (participantFragments c).filterMap column? = c.participantUses) :
    (joinFragments js).filterMap column? = joinUses js := by
  rw [joinFragments_eq_flatMap, List.filterMap_flatMap, List.flatMap_congr hj, joinUses_eq_flatMap]

theorem column?_draft :
    (∀ c : Criteria,
      (∀ existenceOnly, Accepted (draft existenceOnly c).bindingOrder →
        (draft existenceOnly c).statement.filterMap column? = c.columnUses existenceOnly) ∧
      (Accepted (participantFragments c) →
        (participantFragments c).filterMap column? = c.participantUses) ∧
      (fetchedItems c).flatMap (·.filterMap column?) = c.fetchedUses) ∧
    ∀ p : Predicate, ∀ enclosing, Accepted (predicateFragment enclosing p) →
      (predicateFragment enclosing p).filterMap column? = p.columnUses enclosing := by
  apply tree_induction
  case criteria =>
    intro node ps js hp hj
    have hfetched := fun c hc => (hj c hc).2.2
    have hsources := fun hjoins : Accepted (joinFragments js) =>
      column?_joinFragments fun c hc => (hj c hc).2.1 (within_of_joinFragments hjoins c hc)
    have hconditions := fun hfilter : Accepted (predicateFragments node.id true ps) =>
      column?_predicateFragments
        (fun p hmem => hp p hmem node.id (within_of_predicateFragments hfilter p hmem)) true
    refine ⟨fun existenceOnly ha => ?_, fun ha => ?_, ?_⟩
    · obtain ⟨hjoins, hfilter⟩ := within_of_draft ha
      rw [Clauses.filterMap_statement blind_column?, Criteria.columnUses]
      simp only [draft, List.filterMap_cons_none (show column? (.source _ _) = none from rfl),
        hsources hjoins, hconditions hfilter, node.column?_groups, node.column?_orders]
      split
      · rfl
      · rw [column?_projection hfetched]
    · have hne := ne_nil_of_accepted ha
      obtain ⟨hjoins, hfilter⟩ := within_of_participant hne ha
      simp [participantFragments_mk hne, Criteria.participantUses, List.filterMap_cons, column?,
        hconditions hfilter, hsources hjoins]
    · rw [fetchedItems, allFetchedItems_eq_flatMap, List.flatMap_append, List.flatMap_assoc,
        List.flatMap_congr hfetched, Criteria.fetchedUses, allFetchedUses_eq_flatMap]
      split
      · rw [node.column?_items]
      · rfl
  case test => exact fun head t enclosing ha => column?_test ha
  case existence =>
    intro head negated query hq enclosing ha
    have hquery := hq.1 true (within_bindingOrder accepted_of_isEmpty (within_of_existence ha))
    simp [predicateFragment, List.filterMap_cons, column?, hquery, Predicate.columnUses]
  case subquery =>
    intro head op query hq enclosing ha
    obtain ⟨hsubject, hstatement⟩ := within_of_subquery ha
    have hquery := hq.1 false (within_bindingOrder accepted_of_isEmpty hstatement)
    unfold subjectFragment at hsubject
    cases htarget : head.target with
    | none => simp [htarget, isReject] at hsubject
    | some target =>
        simp [predicateFragment, subjectFragment, htarget, List.filterMap_cons, column?, hquery,
          Predicate.columnUses]
  case nested =>
    intro head negated children hc enclosing ha
    have hchildren := column?_predicateFragments
      (fun p hmem => hc p hmem enclosing (within_of_predicateFragments (within_of_nested ha) p hmem)) true
    simp [predicateFragment, List.filterMap_cons, column?, hchildren, Predicate.columnUses]

end Tree

theorem column?_statementDraft {c : Criteria} (h : Accepted c.statementDraft.bindingOrder) :
    c.statementDraft.statement.filterMap column? = c.columnUses false :=
  (column?_draft.1 c).1 false h

end QueryCriteria
