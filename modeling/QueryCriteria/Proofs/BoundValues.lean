import QueryCriteria.Compile.Basic
import QueryCriteria.Proofs.Draft

namespace QueryCriteria

open Template

namespace Test

def segmentValues (args : TemplateArgs) : Segment → List Value
  | .text _ => []
  | .token (.positional index) => (args.positional[index]?).toList.flatMap Value.elements
  | .token (.named name) => (args.named.get? name).toList.flatMap Value.elements
  | .token .column => []

def templateValues (template : String) (args : TemplateArgs) : List Value :=
  match parse template with
  | .error _ => []
  | .ok segments => segments.flatMap (segmentValues args)

def values (target : Target) : Test → List Value
  | .compare _ value => [value]
  | .range _ values => values
  | .between _ low high => [low, high]
  | .fuzzy _ text wildcard _ => [.text (wildcard.apply text)]
  | .nullable _ => []
  | .template args _ => templateValues target.sqlName args
  | .columnEqual _ => []

end Test

def Predicate.ownValues : Predicate → List Value
  | .test head t => head.target.toList.flatMap t.values
  | _ => []

def Criteria.boundValues (c : Criteria) : List Value :=
  c.reading (fun _ => []) (fun _ => []) fun _ => Predicate.ownValues

namespace Fragment

def bound? : Fragment → Option Value
  | .bind value => some value
  | _ => none

theorem selective_bound? : Selective bound? := by
  intro f hbind _ _
  cases f with
  | bind value => cases hbind
  | _ => rfl

theorem holes_map_piece (ctx : Context) (fs : List Fragment) :
    Piece.holes (fs.map (piece ctx)) = fs.filterMap bound? := by
  rw [Piece.holes, List.filterMap_map]
  refine List.filterMap_congr fun f _ => ?_
  cases f with
  | lead connective => cases connective <;> rfl
  | _ => rfl

end Fragment

open Fragment

theorem bound?_boundList (values : List Value) : (boundList values).filterMap bound? = values := by
  rw [filterMap_boundList rfl]
  simp [bound?]

theorem bound?_argumentFragments {template : String} {token : Token} {argument : Option Value}
    (h : Accepted (argumentFragments template token argument)) :
    (argumentFragments template token argument).filterMap bound? =
      argument.toList.flatMap Value.elements := by
  unfold argumentFragments at h ⊢
  split
  · simp [Within, isReject] at h
  · simp [Within, isReject] at h
  · simp [bound?_boundList, Value.elements]
  · simp [bound?, Value.elements]

theorem bound?_segmentFragments {template : String} {args : TemplateArgs} {column : Option ColumnUse}
    {segment : Segment} (h : Accepted (segmentFragments template args column segment)) :
    (segmentFragments template args column segment).filterMap bound? =
      Test.segmentValues args segment := by
  cases segment with
  | text s => rfl
  | token token =>
      cases token with
      | positional index => exact bound?_argumentFragments h
      | named name => exact bound?_argumentFragments h
      | column => cases column <;> rfl

theorem bound?_templateFragments {template : String} {args : TemplateArgs} {column : Option ColumnUse}
    (h : Accepted (templateFragments template args column)) :
    (templateFragments template args column).filterMap bound? =
      Test.templateValues template args := by
  unfold templateFragments at h ⊢
  unfold Test.templateValues
  cases hparse : parse template with
  | error fault => simp [hparse, Within, isReject] at h
  | ok segments =>
    simp only [hparse, within_flatMap] at h
    simp only [List.filterMap_flatMap]
    exact List.flatMap_congr fun segment hsegment => bound?_segmentFragments (h segment hsegment)

theorem bound?_escapeClause (escape : Option Char) : (escapeClause escape).filterMap bound? = [] := by
  cases escape <;> rfl

theorem bound?_testFragments {enclosing : CriteriaId} {head : Predicate.Head} {target : Target}
    {t : Test} (h : Accepted (testFragments enclosing head target t)) :
    (testFragments enclosing head target t).filterMap bound? = t.values target := by
  cases t with
  | compare op value => rfl
  | range op values =>
      simp only [testFragments] at h ⊢
      by_cases hempty : values.isEmpty = true
      · simp [hempty, Within, isReject] at h
      · simp [hempty, List.filterMap_cons, bound?, bound?_boundList, Test.values]
  | between op low high => rfl
  | fuzzy op text wildcard escape =>
      simp [testFragments, List.filterMap_cons, bound?, bound?_escapeClause, Test.values]
  | nullable op => rfl
  | template args column => exact bound?_templateFragments h
  | columnEqual other => rfl

theorem bound?_test {enclosing : CriteriaId} {head : Predicate.Head} {t : Test}
    (h : Accepted (predicateFragment enclosing (.test head t))) :
    (predicateFragment enclosing (.test head t)).filterMap bound? =
      (Predicate.test head t).ownValues := by
  simp only [predicateFragment, Predicate.ownValues] at h ⊢
  cases htarget : head.target with
  | none => simp [htarget, Within, isReject] at h
  | some target =>
      simp only [htarget] at h
      simp only [bound?_testFragments h, Option.toList_some, List.flatMap_singleton]

theorem bound?_statementDraft {c : Criteria} (h : Accepted c.statementDraft.bindingOrder) :
    c.statementDraft.bindingOrder.filterMap bound? = c.boundValues := by
  have hreads := Reads.of_accepted selective_bound? (fun _ _ _ => bound?_test) (fun _ _ _ => rfl)
    (fun _ _ _ => rfl) (fun _ _ _ => rfl)
  exact (hreads.of_draft.1 c).1 false h

end QueryCriteria
