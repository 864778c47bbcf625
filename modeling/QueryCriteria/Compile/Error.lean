import QueryCriteria.Scope.Error

namespace QueryCriteria

inductive CompileError where
  | emptyInList (column : String)
  | unresolvedPlaceholder (token : String)
  | malformedTemplate (template message : String)
  | aliasCollision (aliasName : String)
  | duplicateCriteria (id : CriteriaId)
  | scopeBusy
  | foreignScope (id : CriteriaId)
  | joinWithoutCondition (entity : String)
  | missingTarget (operator : String)
  | scope (e : ScopeError)
deriving DecidableEq, Repr

namespace CompileError

def message : CompileError → String
  | .emptyInList column => "IN list for '" ++ column ++ "' is empty"
  | .unresolvedPlaceholder token =>
      "template placeholder '" ++ token ++ "' has no matching argument"
  | .malformedTemplate template message =>
      "template '" ++ template ++ "' is malformed: " ++ message
  | .aliasCollision aliasName =>
      "alias '" ++ aliasName ++ "' is used by more than one criteria in the statement"
  | .duplicateCriteria id =>
      "criteria " ++ id.toText ++ " appears more than once in the statement"
  | .scopeBusy => "scope is already being compiled"
  | .foreignScope id => "criteria " ++ id.toText ++ " belongs to a different compilation scope"
  | .joinWithoutCondition entity => "join participant '" ++ entity ++ "' has no ON condition"
  | .missingTarget operator => "'" ++ operator ++ "' expression has no column target"
  | .scope e => e.message

def label : CompileError → String
  | .emptyInList _ => "empty_in_list"
  | .unresolvedPlaceholder _ => "unresolved_placeholder"
  | .malformedTemplate _ _ => "malformed_template"
  | .aliasCollision _ => "alias_collision"
  | .duplicateCriteria _ => "duplicate_criteria"
  | .scopeBusy => "scope_busy"
  | .foreignScope _ => "foreign_scope"
  | .joinWithoutCondition _ => "join_without_condition"
  | .missingTarget _ => "missing_target"
  | .scope _ => "scope"

def fault : CompileError → ErrorClass
  | .emptyInList _ => .invalidInput
  | .unresolvedPlaceholder _ => .invalidInput
  | .malformedTemplate _ _ => .invalidInput
  | .joinWithoutCondition _ => .invalidInput
  | .aliasCollision _ => .conflict
  | .duplicateCriteria _ => .conflict
  | .scopeBusy => .conflict
  | .foreignScope _ => .conflict
  | .missingTarget _ => .invariantViolation
  | .scope e => e.fault

def report (e : CompileError) : ErrorReport :=
  .ofMessage .compile e.fault e.message

def ofScope : ScopeError → CompileError
  | .busy => .scopeBusy
  | e => .scope e

end CompileError

end QueryCriteria
