import QueryCriteria.Scope.Error

namespace QueryCriteria

inductive CriteriaError where
  | unknownEntity (entity : String)
  | scope (e : ScopeError)
deriving DecidableEq, Repr

def CriteriaError.message : CriteriaError → String
  | .unknownEntity entity => "unknown entity '" ++ entity ++ "'"
  | .scope e => e.message

def CriteriaError.label : CriteriaError → String
  | .unknownEntity _ => "unknown_entity"
  | .scope e => e.label

def CriteriaError.fault : CriteriaError → ErrorClass
  | .unknownEntity _ => .notFound
  | .scope e => e.fault

def CriteriaError.report (e : CriteriaError) : ErrorReport :=
  .ofMessage .criteria e.fault e.message

end QueryCriteria
