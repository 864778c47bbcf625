import QueryCriteria.Compile.Projection
import QueryCriteria.Criteria.Template

namespace QueryCriteria

namespace Predicate.Head

def columnUse (h : Head) (enclosing : CriteriaId) (target : Target) : ColumnUse where
  owner := h.owner.getD enclosing
  tableAlias := h.tableAlias
  target := target

end Predicate.Head

def boundList (values : List Value) : List Fragment :=
  [Fragment.sql ","].intercalate (values.map fun v => [.bind v])

def argumentFragments (template : String) (token : Template.Token) : Option Value → List Fragment
  | none => [.reject (.unresolvedPlaceholder token.text)]
  | some (.list []) => [.reject (.emptyInList template)]
  | some (.list values) => boundList values
  | some v => [.bind v]

def segmentFragments (template : String) (args : TemplateArgs) (column : Option ColumnUse) :
    Template.Segment → List Fragment
  | .text s => [.sql s]
  | .token (.positional index) =>
      argumentFragments template (.positional index) args.positional[index]?
  | .token (.named name) => argumentFragments template (.named name) (args.named.get? name)
  | .token .column =>
      match column with
      | none => [.reject (.unresolvedPlaceholder Template.Token.column.text)]
      | some use => [.column use]

def templateFragments (template : String) (args : TemplateArgs) (column : Option ColumnUse) :
    List Fragment :=
  match Template.parse template with
  | .error fault => [.reject (.malformedTemplate template fault.message)]
  | .ok segments => segments.flatMap (segmentFragments template args column)

def escapeClause : Option Char → List Fragment
  | none => []
  | some c =>
      let written := if c.toNat = 39 then "''" else String.singleton c
      [.sql (" ESCAPE '" ++ written ++ "'")]

def testFragments (enclosing : CriteriaId) (head : Predicate.Head) (target : Target) :
    Test → List Fragment
  | .compare op value =>
      [.column (head.columnUse enclosing target), .sql (" " ++ op.text ++ " "), .bind value]
  | .range op values =>
      let use := head.columnUse enclosing target
      if values.isEmpty then [.rejectEmpty use]
      else .column use :: .sql (" " ++ op.text ++ " (") :: boundList values ++ [.sql ")"]
  | .between op low high =>
      [.column (head.columnUse enclosing target), .sql (" " ++ op.text ++ " "), .bind low,
        .sql " AND ", .bind high]
  | .fuzzy op text wildcard escape =>
      [.column (head.columnUse enclosing target), .sql (" " ++ op.text ++ " "),
        .bind (.text (wildcard.apply text))] ++ escapeClause escape
  | .nullable op => [.column (head.columnUse enclosing target), .sql (" " ++ op.text)]
  | .template args column =>
      templateFragments target.sqlName args (column.map (head.columnUse enclosing))
  | .columnEqual other =>
      let right : ColumnUse :=
        { owner := other.criteria, tableAlias := other.tableAlias, target := other.target,
          correlated := true }
      [.column { head.columnUse enclosing target with correlated := true }, .sql " = ",
        .column right]

def subjectFragment (enclosing : CriteriaId) (head : Predicate.Head) (operator : String) :
    Fragment :=
  match head.target with
  | none => .reject (.missingTarget operator)
  | some target => .column (head.columnUse enclosing target)

mutual
def draft (existenceOnly : Bool) : Criteria → Clauses Fragment
  | .mk node predicates joins =>
      { select :=
          if existenceOnly && node.selections.isEmpty then [.sql "1"] else projection node joins
        source := .source node.id node.entity.table :: joinFragments joins
        filter := predicateFragments node.id true predicates
        group := listed (node.groups.map node.groupItem)
        order := listed (node.orders.map node.orderItem)
        window := node.pagination.window? }

def participantFragments : Criteria → List Fragment
  | .mk node predicates joins =>
      if predicates.isEmpty then [.reject (.joinWithoutCondition node.entity.name)]
      else
        .sql (" " ++ node.join.kind.text ++ " ") :: .source node.id node.entity.table ::
          .sql " ON " :: predicateFragments node.id true predicates ++ joinFragments joins

def joinFragments : List Criteria → List Fragment
  | [] => []
  | c :: cs => participantFragments c ++ joinFragments cs

def predicateFragment (enclosing : CriteriaId) : Predicate → List Fragment
  | .test head t =>
      match head.target with
      | none => [.reject (.missingTarget t.operator)]
      | some target => testFragments enclosing head target t
  | .existence _ negated query =>
      .sql (if negated then "NOT EXISTS " else "EXISTS ") :: .openQuery ::
        (draft true query).statement ++ [.closeQuery]
  | .subquery head op query =>
      subjectFragment enclosing head op.text :: .sql (" " ++ op.text ++ " ") :: .openQuery ::
        (draft false query).statement ++ [.closeQuery]
  | .nested _ negated children =>
      .openGroup negated :: predicateFragments enclosing true children ++ [.closeGroup]

def predicateFragments (enclosing : CriteriaId) (first : Bool) : List Predicate → List Fragment
  | [] => []
  | p :: ps =>
      .lead (if first then none else some p.head.connective) ::
        predicateFragment enclosing p ++ predicateFragments enclosing false ps
end

end QueryCriteria
