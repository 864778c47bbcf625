import QueryCriteria.Criteria.Target
import QueryCriteria.Criteria.Window
import QueryCriteria.Model.Entity
import QueryCriteria.Scope.Handle
import QueryCriteria.Text.NameMap
import QueryCriteria.Value

namespace QueryCriteria

open QueryCriteria.Model

structure RenderFlags where
  distinct : Bool := false
  containsFunction : Bool := false
  onlyFunctions : Bool := false
  propertyLabels : Bool := false
  keepOrder : Bool := false
deriving DecidableEq, Repr

def RenderFlags.entries (fs : RenderFlags) : List (String × Bool) :=
  [("distinct", fs.distinct), ("contains_func", fs.containsFunction),
    ("only_func", fs.onlyFunctions), ("use_prop_alias", fs.propertyLabels),
    ("keep_order_by", fs.keepOrder)]

structure ResultShape where
  resultMap : Option String := none
  resultType : Option String := none
  mapKey : Option String := none
  mapType : Option String := none
deriving DecidableEq, Repr

def ResultShape.entries (s : ResultShape) : List (String × Option String) :=
  [("result_map", s.resultMap), ("result_type", s.resultType), ("map_key", s.mapKey),
    ("map_type", s.mapType)]

structure JoinSpec where
  kind : JoinKind := .inner
  fetch : Bool := false
deriving DecidableEq, Repr

structure Node where
  scope : ScopeId
  id : CriteriaId
  entity : Entity
  parent : Option CriteriaId
  selections : List Selection := []
  ignored : NameSet := {}
  groups : List Grouping := []
  orders : List OrderItem := []
  pagination : Pagination := {}
  flags : RenderFlags := {}
  shape : ResultShape := {}
  join : JoinSpec := {}
  qualify : Option Bool := none
deriving DecidableEq, Repr

structure ColumnSide where
  criteria : CriteriaId
  tableAlias : Option String := none
  target : Target
deriving DecidableEq, Repr

structure TemplateArgs where
  positional : List Value := []
  named : NameMap Value := {}

def TemplateArgs.isEmpty (args : TemplateArgs) : Bool :=
  args.positional.isEmpty && args.named.isEmpty

inductive Test where
  | compare (op : CompareOp) (value : Value)
  | range (op : RangeOp) (values : List Value)
  | between (op : BetweenOp) (low high : Value)
  | fuzzy (op : FuzzyOp) (text : String) (wildcard : Wildcard) (escape : Option Char)
  | nullable (op : NullOp)
  | template (args : TemplateArgs) (column : Option Target)
  | columnEqual (other : ColumnSide)

inductive MatchMode where
  | immediate
  | standard
  | existence
deriving DecidableEq, Repr

def MatchMode.text : MatchMode → String
  | .immediate => "IMMEDIATE"
  | .standard => "STANDARD"
  | .existence => "EXISTS"

structure Predicate.Head where
  owner : Option CriteriaId := none
  tableAlias : Option String := none
  connective : Connective := .and
  matched : MatchMode := .existence
  target : Option Target := none
deriving DecidableEq, Repr

mutual
inductive Criteria where
  | mk (node : Node) (predicates : List Predicate) (joins : List Criteria)

inductive Predicate where
  | test (head : Predicate.Head) (test : Test)
  | existence (head : Predicate.Head) (negated : Bool) (query : Criteria)
  | subquery (head : Predicate.Head) (op : SubqueryOp) (query : Criteria)
  | nested (head : Predicate.Head) (negated : Bool) (children : List Predicate)
end

namespace Criteria

def node : Criteria → Node
  | .mk node _ _ => node

def predicates : Criteria → List Predicate
  | .mk _ predicates _ => predicates

def joins : Criteria → List Criteria
  | .mk _ _ joins => joins

def mapNode (c : Criteria) (f : Node → Node) : Criteria :=
  .mk (f c.node) c.predicates c.joins

def scope (c : Criteria) : ScopeId :=
  c.node.scope

def id (c : Criteria) : CriteriaId :=
  c.node.id

def fresh (scope : ScopeId) (id : CriteriaId) (entity : Entity) (parent : Option CriteriaId) :
    Criteria :=
  .mk { scope, id, entity, parent } [] []

end Criteria

def Test.operator : Test → String
  | .compare op _ => op.text
  | .range op _ => op.text
  | .between op _ _ => op.text
  | .fuzzy op _ _ _ => op.text
  | .nullable op => op.text
  | .template _ _ => "TEMPLATE"
  | .columnEqual _ => "="

def Test.isColumnEqual : Test → Bool
  | .columnEqual _ => true
  | _ => false

namespace Predicate

def head : Predicate → Head
  | .test head _ => head
  | .existence head _ _ => head
  | .subquery head _ _ => head
  | .nested head _ _ => head

def matched (p : Predicate) : MatchMode :=
  p.head.matched

def operator : Predicate → String
  | .test _ t => t.operator
  | .existence _ negated _ => if negated then "NOT EXISTS" else "EXISTS"
  | .subquery _ op _ => op.text
  | .nested _ negated _ => if negated then "NOT NESTED" else "NESTED"

mutual
def correlates : Predicate → Bool
  | .test _ t => t.isColumnEqual
  | .existence _ _ _ => false
  | .subquery _ _ _ => false
  | .nested _ _ children => anyCorrelates children

def anyCorrelates : List Predicate → Bool
  | [] => false
  | p :: ps => correlates p || anyCorrelates ps
end

def Head.bindOwner (h : Head) (id : CriteriaId) : Head :=
  { h with owner := h.owner <|> some id }

mutual
def bindOwner (id : CriteriaId) : Predicate → Predicate
  | .test head t => .test (head.bindOwner id) t
  | .existence head negated query => .existence (head.bindOwner id) negated query
  | .subquery head op query => .subquery (head.bindOwner id) op query
  | .nested head negated children => .nested (head.bindOwner id) negated (bindOwners id children)

def bindOwners (id : CriteriaId) : List Predicate → List Predicate
  | [] => []
  | p :: ps => bindOwner id p :: bindOwners id ps
end

theorem head_bindOwner (id : CriteriaId) (p : Predicate) :
    (p.bindOwner id).head = p.head.bindOwner id := by
  cases p <;> rfl

end Predicate

end QueryCriteria
