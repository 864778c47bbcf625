import QueryCriteria.Proofs.Rendering

namespace QueryCriteria

namespace Test

def argumentFaults (template : String) (token : Template.Token) : Option Value → List CompileError
  | none => [.unresolvedPlaceholder token.text]
  | some (.list []) => [.emptyInList template]
  | some _ => []

def segmentFaults (template : String) (args : TemplateArgs) (column : Option Target) :
    Template.Segment → List CompileError
  | .text _ => []
  | .token (.positional index) =>
      argumentFaults template (.positional index) args.positional[index]?
  | .token (.named name) => argumentFaults template (.named name) (args.named.get? name)
  | .token .column => if column.isNone then [.unresolvedPlaceholder Template.Token.column.text] else []

def templateFaults (template : String) (args : TemplateArgs) (column : Option Target) :
    List CompileError :=
  match Template.parse template with
  | .error fault => [.malformedTemplate template fault.message]
  | .ok segments => segments.flatMap (segmentFaults template args column)

def faults (ctx : Context) (use : ColumnUse) : Test → List CompileError
  | .range _ [] => [.emptyInList (use.text ctx)]
  | .template args column => templateFaults use.target.sqlName args column
  | _ => []

end Test

def Predicate.faults (ctx : Context) (enclosing : CriteriaId) : Predicate → List CompileError
  | .test head t =>
      match head.target with
      | none => [.missingTarget t.operator]
      | some target => t.faults ctx (head.columnUse enclosing target)
  | .subquery head op _ => if head.target.isNone then [.missingTarget op.text] else []
  | .existence _ _ _ => []
  | .nested _ _ _ => []

def Criteria.joinFaults (c : Criteria) : List CompileError :=
  if c.predicates.isEmpty then [.joinWithoutCondition c.node.entity.name] else []

def Criteria.renderFaults (ctx : Context) (c : Criteria) : List CompileError :=
  c.reading (fun _ => []) Criteria.joinFaults (Predicate.faults ctx)

open Fragment

variable {ctx : Context}

theorem refusal?_argumentFragments (template : String) (token : Template.Token) (argument : Option Value) :
    (argumentFragments template token argument).filterMap (refusal? ctx) =
      Test.argumentFaults template token argument := by
  cases argument with
  | none => rfl
  | some value =>
      cases value with
      | list items =>
          cases items with
          | nil => rfl
          | cons v vs =>
              have hlist := filterMap_boundList (h := refusal? ctx) rfl (v :: vs)
              simpa [argumentFragments, Test.argumentFaults, refusal?] using hlist
      | _ => rfl

theorem refusal?_templateFragments (template : String) (args : TemplateArgs) (column : Option Target)
    (use : Target → ColumnUse) :
    (templateFragments template args (column.map use)).filterMap (refusal? ctx) =
      Test.templateFaults template args column := by
  unfold templateFragments Test.templateFaults
  cases Template.parse template with
  | error fault => rfl
  | ok segments =>
      simp only [List.filterMap_flatMap]
      refine List.flatMap_congr fun segment _ => ?_
      cases segment with
      | text s => rfl
      | token token =>
          cases token with
          | positional index => exact refusal?_argumentFragments _ _ _
          | named name => exact refusal?_argumentFragments _ _ _
          | column => cases column <;> rfl

theorem refusal?_test (enclosing : CriteriaId) (head : Predicate.Head) (t : Test) :
    (predicateFragment enclosing (.test head t)).filterMap (refusal? ctx) =
      (Predicate.test head t).faults ctx enclosing := by
  simp only [predicateFragment, Predicate.faults]
  cases head.target with
  | none => rfl
  | some target =>
      cases t with
      | range op values =>
          cases values with
          | nil => rfl
          | cons v vs =>
              have hlist := filterMap_boundList (h := refusal? ctx) rfl (v :: vs)
              simp [testFragments, Test.faults, List.filterMap_cons, refusal?, hlist]
      | fuzzy op text wildcard escape => cases escape <;> rfl
      | template args column => exact refusal?_templateFragments _ _ _ _
      | _ => rfl

theorem reads_refusal? (ctx : Context) :
    Reads (fun _ => True) (fun xs ys => xs.head? = ys.head?) (refusal? ctx) (fun _ => [])
      Criteria.joinFaults (Predicate.faults ctx) where
  selective := selective_refusal? ctx
  congruent :=
    { nil := rfl
      append := fun h k => by rw [List.head?_append, List.head?_append, h, k] }
  empty _ _ := trivial
  table _ := rfl
  joined c hne := by simp [Criteria.joinFaults, hne, refusal?]
  unjoined c hempty _ := by
    obtain ⟨node, ps, js⟩ := c
    obtain rfl : ps = [] := hempty
    simp [participantFragments, Criteria.joinFaults, Criteria.predicates, Criteria.node, refusal?]
  test enclosing head t _ := by rw [refusal?_test]
  existence _ _ _ _ := rfl
  subquery enclosing head op query _ := by
    unfold subjectFragment
    cases htarget : head.target <;> simp [Predicate.faults, htarget, refusal?]
  nested _ _ _ _ := rfl

theorem firstFailure?_statementDraft {c : Criteria} (hknown : ∀ id ∈ c.named, (ctx.alias? id).isSome) :
    firstFailure? ctx (draft false c).bindingOrder = (c.renderFaults ctx).head? := by
  rw [firstFailure?_of_known (ownedBy_draft c false) hknown]
  exact ((reads_refusal? ctx).of_draft.1 c).1 false fun _ _ => trivial

end QueryCriteria
