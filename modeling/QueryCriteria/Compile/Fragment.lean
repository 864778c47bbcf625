import QueryCriteria.Compile.Clauses
import QueryCriteria.Compile.Error
import QueryCriteria.Criteria.Tree

namespace QueryCriteria

structure ColumnUse where
  owner : CriteriaId
  tableAlias : Option String := none
  target : Target
  correlated : Bool := false
deriving DecidableEq, Repr

inductive Fragment where
  | sql (text : String)
  | keyword (text : String) (use : ColumnUse)
  | lead (connective : Option Connective)
  | column (use : ColumnUse)
  | bind (value : Value)
  | source (id : CriteriaId) (table : String)
  | openGroup (negated : Bool)
  | closeGroup
  | openQuery
  | closeQuery
  | reject (error : CompileError)
  | rejectEmpty (use : ColumnUse)

namespace Fragment

def isEmpty : Fragment → Bool
  | .sql text => text == ""
  | .lead none => true
  | _ => false

def column? : Fragment → Option ColumnUse
  | .column use => some use
  | _ => none

def heading (keyword : String) (parts : List Fragment) : Fragment :=
  match parts.findSome? column? with
  | none => .sql keyword
  | some use =>
      if parts.all fun f => f.isEmpty || f.column?.isSome then .keyword keyword use else .sql keyword

instance : SqlPart Fragment where
  sql := .sql
  heading := heading
  isEmpty := isEmpty

def isBind : Fragment → Bool
  | .bind _ => true
  | _ => false

def isLead : Fragment → Bool
  | .lead _ => true
  | _ => false

def isQuery : Fragment → Bool
  | .openQuery => true
  | _ => false

end Fragment

end QueryCriteria
