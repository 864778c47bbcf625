import QueryCriteria.Criteria.Operator
import QueryCriteria.Model.Column

namespace QueryCriteria

open QueryCriteria.Model

inductive Target where
  | raw (sql : String)
  | resolved (column : Column)
deriving DecidableEq, Repr

def Target.sqlName : Target → String
  | .raw sql => sql
  | .resolved column => column.name

def Target.isRaw : Target → Bool
  | .raw _ => true
  | .resolved _ => false

inductive Selection where
  | column (target : Target) (label : Option String)
  | native (sql : String) (label : Option String)
  | aggregate (func : Aggregate) (target : Option Target) (distinct : Bool) (label : Option String)
deriving DecidableEq, Repr

def Selection.label : Selection → Option String
  | .column _ label => label
  | .native _ label => label
  | .aggregate _ _ _ label => label

def Selection.isPlain : Selection → Bool
  | .aggregate _ _ _ _ => false
  | _ => true

inductive Grouping where
  | column (target : Target)
  | native (sql : String)
deriving DecidableEq, Repr

inductive OrderItem where
  | column (target : Target) (direction : Direction)
  | native (sql : String)
deriving DecidableEq, Repr

end QueryCriteria
