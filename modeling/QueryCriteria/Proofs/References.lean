import QueryCriteria.Compile.Reference
import QueryCriteria.Proofs.Tree

namespace QueryCriteria

def Reference.table? : Reference → Option CriteriaId
  | .source _ id _ _ => some id
  | _ => none

def tables (refs : List Reference) : List CriteriaId :=
  refs.filterMap Reference.table?

@[simp]
theorem tables_nil : tables [] = [] := rfl

@[simp]
theorem tables_cons (r : Reference) (refs : List Reference) :
    tables (r :: refs) = r.table?.toList ++ tables refs := by
  cases h : r.table? <;> simp [tables, h]

@[simp]
theorem tables_append (refs more : List Reference) : tables (refs ++ more) = tables refs ++ tables more :=
  List.filterMap_append

def Criteria.ownReference (c : Criteria) : Reference :=
  .source c.scope c.id c.node.qualify (!c.joins.isEmpty)

def Test.handles : Test → List CriteriaId
  | .columnEqual other => [other.criteria]
  | _ => []

def Predicate.handles (p : Predicate) : List CriteriaId :=
  p.head.owner.toList ++
    match p with
    | .test _ t => t.handles
    | _ => []

def Predicate.ownReferences : Predicate → List Reference
  | .test head t => head.references ++ t.references
  | .existence head _ _ => head.references
  | .subquery head _ _ => head.references
  | .nested head _ _ => head.references

theorem handle_of_mem_ownReferences {p : Predicate} {r : Reference} (hr : r ∈ p.ownReferences) :
    r.table? = none := by
  cases p with
  | test head t =>
      cases t <;> simp_all [Predicate.ownReferences, Predicate.Head.references, Test.references] <;>
        grind [Reference.table?]
  | _ =>
      simp only [Predicate.ownReferences, Predicate.Head.references, List.mem_map] at hr
      obtain ⟨id, -, rfl⟩ := hr
      rfl

theorem map_id_ownReferences (p : Predicate) : p.ownReferences.map Reference.id = p.handles := by
  have howner : ∀ head : Predicate.Head, head.references.map Reference.id = head.owner.toList := by
    intro head
    cases h : head.owner <;> simp [Predicate.Head.references, h, Reference.id]
  cases p with
  | test head t =>
      rw [Predicate.ownReferences, List.map_append, howner]
      cases t <;> rfl
  | _ => simp [Predicate.ownReferences, Predicate.handles, howner, Predicate.head]

theorem predicateReferences_eq_flatMap (ps : List Predicate) :
    predicateReferences ps = ps.flatMap Predicate.references := by
  induction ps with
  | nil => rfl
  | cons p ps ih => simp [predicateReferences, ih]

theorem joinReferences_eq_flatMap (js : List Criteria) :
    joinReferences js = js.flatMap Criteria.references := by
  induction js with
  | nil => rfl
  | cons c cs ih => simp [joinReferences, ih]

theorem references_mk (node : Node) (ps : List Predicate) (js : List Criteria) :
    (Criteria.mk node ps js).references =
      (Criteria.mk node ps js).ownReference ::
        (ps.flatMap Predicate.references ++ js.flatMap Criteria.references) := by
  rw [Criteria.references, predicateReferences_eq_flatMap, joinReferences_eq_flatMap]
  rfl

theorem references_nested (head : Predicate.Head) (negated : Bool) (children : List Predicate) :
    (Predicate.nested head negated children).references =
      head.references ++ children.flatMap Predicate.references := by
  rw [Predicate.references, predicateReferences_eq_flatMap]

theorem references_eq_gather :
    (∀ c : Criteria, c.references = c.gather (fun c => [c.ownReference]) Predicate.ownReferences) ∧
    ∀ p : Predicate, p.references = p.gather (fun c => [c.ownReference]) Predicate.ownReferences := by
  apply tree_induction
  case criteria =>
    intro node ps js hp hj
    rw [references_mk, gather_mk, List.flatMap_congr hp, List.flatMap_congr hj]
    simp
  case test => simp [Predicate.references, Predicate.ownReferences]
  case existence =>
    intro head negated query hq
    simp [Predicate.references, Predicate.ownReferences, hq]
  case subquery =>
    intro head op query hq
    simp [Predicate.references, Predicate.ownReferences, hq]
  case nested =>
    intro head negated children hc
    rw [references_nested, gather_nested, List.flatMap_congr hc]
    rfl

theorem tables_references (c : Criteria) : tables c.references = c.members.map Criteria.id := by
  have hnone : ∀ p : Predicate, p.ownReferences.flatMap (fun r => r.table?.toList) = [] := by
    intro p
    refine List.flatMap_eq_nil_iff.mpr fun r hr => ?_
    rw [handle_of_mem_ownReferences hr]
    rfl
  rw [tables, List.filterMap_eq_flatMap_toList, references_eq_gather.1, (flatMap_gather _).1]
  simp only [hnone, gather_criteria]
  simp [Criteria.ownReference, Reference.table?, List.map_eq_flatMap]

theorem mem_references {c : Criteria} {r : Reference} :
    r ∈ c.references ↔
      (∃ m ∈ c.members, r = m.ownReference) ∨ ∃ p ∈ c.conditions, r ∈ p.ownReferences := by
  rw [references_eq_gather.1, mem_gather.1]
  simp

end QueryCriteria
