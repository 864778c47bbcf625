import QueryCriteria.Scope.Handle

namespace QueryCriteria

inductive SkipReason where
  | blankTarget
  | missingTarget
  | missingOwner (property : String)
  | unknownOwner (id : CriteriaId)
  | unresolvedProperty (entity property : String)
  | unresolvedId (entity : String)
  | nullValue
  | listForScalar
  | emptyCollection
  | missingBound
  | emptyText
  | missingTemplate
  | missingSubquery
  | missingOther
  | emptyNested
deriving DecidableEq, Repr

namespace SkipReason

def isStructural : SkipReason → Bool
  | .emptyCollection | .missingBound | .missingTemplate | .missingSubquery | .missingOther
  | .emptyNested => true
  | _ => false

def label : SkipReason → String
  | .blankTarget => "blank_target"
  | .missingTarget => "missing_target"
  | .missingOwner _ => "missing_owner"
  | .unknownOwner _ => "unknown_owner"
  | .unresolvedProperty _ _ => "unresolved_property"
  | .unresolvedId _ => "unresolved_id"
  | .nullValue => "null_value"
  | .listForScalar => "list_for_scalar"
  | .emptyCollection => "empty_collection"
  | .missingBound => "missing_bound"
  | .emptyText => "empty_text"
  | .missingTemplate => "missing_template"
  | .missingSubquery => "missing_subquery"
  | .missingOther => "missing_other"
  | .emptyNested => "empty_nested"

def message : SkipReason → String
  | .blankTarget => "column target is blank"
  | .missingTarget => "no column target was given"
  | .missingOwner property =>
      "expression has no owning criteria to resolve '" ++ property ++ "' against"
  | .unknownOwner id => "owning criteria " ++ id.toText ++ " is not registered in the scope"
  | .unresolvedProperty entity property =>
      "entity '" ++ entity ++ "' has no mapped property '" ++ property ++ "'"
  | .unresolvedId entity => "entity '" ++ entity ++ "' has no primary key column"
  | .nullValue => "value is null"
  | .listForScalar => "a list value was given to a single-value operator"
  | .emptyCollection => "value collection is null or empty"
  | .missingBound => "range bound is missing"
  | .emptyText => "fuzzy match text is empty"
  | .missingTemplate => "template text is missing or blank"
  | .missingSubquery => "no subquery was given"
  | .missingOther => "column equality has no right-hand side"
  | .emptyNested => "nested group has no children"

end SkipReason

end QueryCriteria
