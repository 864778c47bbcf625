import QueryCriteria.Error
import QueryCriteria.Scope.Handle

namespace QueryCriteria

inductive ScopeError where
  | frozen
  | busy
  | unknownCriteria (id : CriteriaId)
  | aliasAssigned (id : CriteriaId) (current : String)
  | exhausted
deriving DecidableEq, Repr

def ScopeError.message : ScopeError → String
  | .frozen => "scope is frozen for compilation; construction must finish before compiling"
  | .busy => "scope is already being compiled"
  | .unknownCriteria id => "criteria handle " ++ id.toText ++ " is not registered in this scope"
  | .aliasAssigned id current =>
      "criteria " ++ id.toText ++ " already has alias '" ++ current ++ "'"
  | .exhausted => "criteria registry is full"

def ScopeError.label : ScopeError → String
  | .frozen => "frozen"
  | .busy => "busy"
  | .unknownCriteria _ => "unknown_criteria"
  | .aliasAssigned _ _ => "alias_assigned"
  | .exhausted => "exhausted"

def ScopeError.fault : ScopeError → ErrorClass
  | .frozen => .conflict
  | .busy => .conflict
  | .unknownCriteria _ => .notFound
  | .aliasAssigned _ _ => .conflict
  | .exhausted => .internal

def ScopeError.report (e : ScopeError) : ErrorReport :=
  .ofMessage .scope e.fault e.message

end QueryCriteria
